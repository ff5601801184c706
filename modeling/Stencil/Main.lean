import Stencil.CommandLine.Run
import Stencil.CommandLine.Usage

/-!
# The program

The commands work on a tree, so the part of the disk that a command can look at is read into one
first: the files that its arguments name, and everything in the directory of partials.
-/

set_option autoImplicit false

open Stencil Stencil.Files Stencil.CommandLine

namespace Stencil.Main

/-- What is on the disk at a path; of a directory, what is below it only if `deep`. -/
partial def entryOnDisk (path : String) (deep : Bool) : IO (Option Entry) := do
  try
    let place ← IO.FS.realPath path
    if ← place.isDir then
      let mut entries := []
      if deep then
        for item in ← place.readDir do
          if let some entry ← entryOnDisk (path ++ "/" ++ item.fileName) deep then
            entries := (item.fileName, entry) :: entries
      return some (.directory entries)
    else return some (.file (← IO.FS.readBinFile place).toList)
  catch _ => return none

/-- The tree with what is on the disk at a path, and with the directories on the way. -/
def addFromDisk (tree : Tree) (path : Path) (deep : Bool) : IO Tree := do
  let mut root := tree.root
  for count in List.range (path.components.length + 1) do
    let step := { path with components := path.components.take count }
    let place := step.resolve tree.working
    let last := count == path.components.length
    if let some entry ← entryOnDisk step.text (deep && last) then
      if last || (root.find? place).isNone then root := Entry.insert entry place root
  return { tree with root := root }

/-- The part of the disk that a command can look at. -/
def treeFor (invocation : Invocation) : IO Tree := do
  let working := (Path.ofText (← IO.currentDir).toString).components
  let start : Tree := ⟨Entry.insert (.directory []) working (.directory []), working⟩
  let named := [some invocation.template, invocation.data].filterMap (·.map Path.ofText)
  let mut tree ← addFromDisk start (settingsPath start invocation) false
  for path in named do tree ← addFromDisk tree path false
  match settings tree invocation Yaml.Document.ofText with
  | .ok { partialsPath := some path, .. } => addFromDisk tree path true
  | _ => return tree

/-- What is said about a command that was broken off. -/
def breakdownText : Breakdown → String
  | .file error => error.message
  | .yaml fault => fault.message
  | .context error => error.message

def execute (invocation : Invocation) : IO UInt32 := do
  let debug := (← IO.getEnv "STACHE_DEBUG").any fun value => !value.isEmpty
  let outcome := run (← treeFor invocation) debug invocation
  IO.eprint outcome.reported
  IO.print outcome.output
  match outcome.ending with
  | .ok code => return code.toUInt32
  | .error cause =>
    IO.eprintln (breakdownText cause)
    return 1

end Stencil.Main

def main (arguments : List String) : IO UInt32 := do
  match Invocation.ofArguments arguments with
  | .ok invocation => Stencil.Main.execute invocation
  | .error stop =>
    let (text, code) := stop.answer
    if code == 0 then IO.print text else IO.eprint text
    return code.toUInt32

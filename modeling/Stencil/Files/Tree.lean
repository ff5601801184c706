import Stencil.Files.Path
import Stencil.Files.Content
import Stencil.Text.Quoted

/-!
# File trees

Files and directories below one root, seen from a working directory; there are no links. Looking
something up follows a path component by component, the way a file system does: two dots go up from
a directory, but only from one that is there.
-/

set_option autoImplicit false

namespace Stencil.Files

inductive Entry
  | file (content : List UInt8)
  | directory (entries : List (String × Entry))

instance : Inhabited Entry := ⟨.directory []⟩

namespace Entry

/-- The entry of this name in a directory. -/
def child? (name : String) : Entry → Option Entry
  | .file _ => none
  | .directory entries => entries.lookup name

/-- The entry at a place below this one. -/
def find? (entry : Entry) : List String → Option Entry
  | [] => some entry
  | name :: rest =>
    match entry.child? name with
    | none => none
    | some next => next.find? rest

def isFile : Entry → Bool
  | .file _ => true
  | .directory _ => false

/-- The named entries of a directory with one of them set. -/
def setChild (name : String) (entry : Entry) : List (String × Entry) → List (String × Entry)
  | [] => [(name, entry)]
  | other :: rest =>
    if other.1 == name then (name, entry) :: rest else other :: setChild name entry rest

/-- The entry with something put at a place below it; directories on the way are made. -/
def insert (added : Entry) : List String → Entry → Entry
  | [], _ => added
  | name :: rest, entry =>
    let entries :=
      match entry with
      | .file _ => []
      | .directory entries => entries
    let inner := (entries.lookup name).getD (.directory [])
    .directory (setChild name (insert added rest inner) entries)

end Entry

inductive AccessError
  | missing
  | notDirectory
  /-- A name or a path that is longer than a file system takes. -/
  | nameTooLong
  /-- A name that no file can have. -/
  | embeddedNull
deriving DecidableEq, Repr

structure Tree where
  root : Entry
  working : List String

/-- The most bytes that a name may have. -/
def nameLimit : Nat := 255

/-- The number of bytes from which on a path is too long. -/
def pathLimit : Nat := 4096

namespace Tree

/-- Follows components from a place that is known to be there. -/
def followFrom (tree : Tree) (place : List String) : List String → Except AccessError Entry
  | [] =>
    match tree.root.find? place with
    | some entry => .ok entry
    | none => .error .missing
  | name :: rest =>
    match tree.root.find? place with
    | none => .error .missing
    | some (.file _) => .error .notDirectory
    | some entry =>
      if name = ".." then tree.followFrom place.dropLast rest
      else if nameLimit < name.utf8ByteSize then .error .nameTooLong
      else if (entry.child? name).isNone then .error .missing
      else tree.followFrom (place ++ [name]) rest

def access (tree : Tree) (path : Path) : Except AccessError Entry :=
  if path.hasNull then .error .embeddedNull
  else if pathLimit ≤ path.text.utf8ByteSize then .error .nameTooLong
  else tree.followFrom (if path.isAbsolute then [] else tree.working) path.components

end Tree

inductive FileError
  | embeddedNull
  | nameTooLong (path : String)
  | isDirectory (path : String)
  | undecodable (fault : Text.Utf8.Fault)
deriving DecidableEq, Repr

def FileError.message : FileError → String
  | .embeddedNull => "embedded null byte"
  | .nameTooLong path => "[Errno 36] File name too long: " ++ Text.quoted path
  | .isDirectory path => "[Errno 21] Is a directory: " ++ Text.quoted path
  | .undecodable fault => fault.message

namespace Tree

/-- Whether a path leads to something that satisfies a test. A path that leads to nothing does not,
but one that is too long to follow is an error. -/
def probe (tree : Tree) (path : Path) (test : Entry → Bool) : Except FileError Bool :=
  match tree.access path with
  | .ok entry => .ok (test entry)
  | .error .nameTooLong => .error (.nameTooLong path.text)
  | .error _ => .ok false

def isFile (tree : Tree) (path : Path) : Except FileError Bool := tree.probe path Entry.isFile

/-- The text of the file at a path; there is none where there is no file. -/
def readText (tree : Tree) (path : Path) : Except FileError (Option String) :=
  match tree.access path with
  | .ok (.file content) =>
    match textOf content with
    | .ok text => .ok (some text)
    | .error fault => .error (.undecodable fault)
  | _ => .ok none

end Tree

end Stencil.Files

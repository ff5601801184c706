import Stencil.Notice
import Stencil.Template.Draft

/-!
# Reading a template

A source is read from a pair of delimiters on. Reading it gives a document or the first defect,
and in either case the delimiters that were in force at the end: another source can be read on
from there. The defects that show while reading come first, from left to right; only a source
without any of these is searched for sections that are not closed.
-/

set_option autoImplicit false

namespace Stencil

structure Reading where
  /-- The delimiters in force where reading ended. -/
  delimiters : Delimiters
  /-- The switches of delimiters on the way: the new pair and where its tag stands. -/
  switches : List (Delimiters × Nat)
  outcome : Except SyntaxError Document

namespace Template

def switchesOf (segments : List Segment) : List (Delimiters × Nat) :=
  segments.filterMap fun segment =>
    match segment.token with
    | .tag tag => if tag.type = .switch then some (segment.next, segment.start) else none
    | _ => none

def delimitersAfter (pair : Delimiters) (segments : List Segment) : Delimiters :=
  (segments.getLast?.map Segment.next).getD pair

/-- The document that a draft stands for, unless one of its sections is not closed. -/
def close (source : String) (drafts : List Draft) : Except SyntaxError Document :=
  match Draft.unclosedIn? drafts with
  | some tag => .error (.unclosedSection tag.name tag.position)
  | none => .ok ⟨Draft.toNodes drafts, source⟩

def readFrom (pair : Delimiters) (source : String) : Reading :=
  let segments := segments pair source.toList
  match Draft.nest [] [] segments with
  | .error (stop, error) =>
    { delimiters := stop.delimiters
      switches := switchesOf (segments.takeWhile (·.start < stop.start))
      outcome := .error error }
  | .ok drafts =>
    { delimiters := delimitersAfter pair segments
      switches := switchesOf segments
      outcome := close source drafts }

def read (source : String) : Reading := readFrom .braces source

/-- The document of a source, or its first defect. -/
def parse (source : String) : Except SyntaxError Document := (read source).outcome

end Template

def Reading.notices (reading : Reading) : List Notice :=
  reading.switches.map (fun switch => .switched switch.1 switch.2) ++
    match reading.outcome with
    | .ok document => [.read document.source.length document.nodes.length]
    | .error _ => []

end Stencil

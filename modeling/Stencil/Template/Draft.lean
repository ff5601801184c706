import Stencil.Node
import Stencil.Template.Segment

/-!
# Drafts of a document

A draft is a document in which each section still remembers the tag that closed it, if any did.
Sections are nested by the order of their begin and end tags alone; names play no part in that.
The only thing that can go wrong is a section end with no section open. Whether the end of each
section bears its name is asked of the finished draft.
-/

set_option autoImplicit false

namespace Stencil.Template

inductive Draft
  | leaf (label : Label)
  /-- A section: its begin tag, its body, and the tag that ended it. -/
  | block (opening : Tag) (body : List Draft) (closing : Option Tag)
deriving Repr

namespace Draft

/-- Whether a section was ended by a tag of the same name. -/
def isClosed (opening : Tag) (closing : Option Tag) : Bool :=
  match closing with
  | none => false
  | some tag => tag.name == opening.name

mutual

/-- The first section, in the order of the source, that is not ended under its own name. -/
def unclosed? : Draft → Option Tag
  | .leaf _ => none
  | .block opening body closing =>
    if isClosed opening closing then unclosedIn? body else some opening

def unclosedIn? : List Draft → Option Tag
  | [] => none
  | draft :: rest =>
    match draft.unclosed? with
    | some tag => some tag
    | none => unclosedIn? rest

end

mutual

/-- The node that a draft stands for; the tag that ended a section is not part of it. -/
def toNode : Draft → Node
  | .leaf label => ⟨label, []⟩
  | .block opening body _ => ⟨.tag opening, toNodes body⟩

def toNodes : List Draft → List Node
  | [] => []
  | draft :: rest => draft.toNode :: toNodes rest

end

/-- A section that is still open: its begin tag, and what came before it at its own level, latest
first. -/
structure Level where
  opening : Tag
  earlier : List Draft

/-- The drafts of the outermost level, with the sections that are still open left unclosed. -/
def abandon : List Level → List Draft → List Draft
  | [], body => body.reverse
  | level :: outer, body => abandon outer (.block level.opening body.reverse none :: level.earlier)

/-- Nests segments into drafts. `openLevels` holds the open sections, innermost first, and `body` what
has been read of the innermost one, latest first. Reading stops at the first segment that is
faulty or ends a section that was never begun; that segment is given with the defect. -/
def nest (openLevels : List Level) (body : List Draft) :
    List Segment → Except (Segment × SyntaxError) (List Draft)
  | [] => .ok (abandon openLevels body)
  | segment :: rest =>
    match segment.token with
    | .fault error => .error (segment, error)
    | .text content =>
      nest openLevels (.leaf (.text (String.ofList content) segment.start) :: body) rest
    | .tag tag =>
      if tag.isSectionBegin then nest (⟨tag, body⟩ :: openLevels) [] rest
      else if tag.isSectionEnd then
        match openLevels with
        | [] => .error (segment, .unmatchedSectionEnd tag.name tag.position)
        | level :: outer =>
          nest outer (.block level.opening body.reverse (some tag) :: level.earlier) rest
      else nest openLevels (.leaf (.tag tag) :: body) rest

end Draft

end Stencil.Template

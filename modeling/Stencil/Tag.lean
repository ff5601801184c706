import Stencil.Text.Blank
import Stencil.Text.Quoted

/-!
# Tags

A tag is what stands between two delimiters. Its first character, the sigil, says what the tag is
for; what is left after the sigil, trimmed, is its name. A tag without a sigil is a variable. Two
forms are outside this scheme: a tag written with three braces is an unescaped variable whatever
it holds, and a tag between two equal signs switches the delimiters.

Positions are offsets in code points. They are integers, because a tag can be made without any
source that it would be a part of.
-/

set_option autoImplicit false

namespace Stencil

inductive TagType
  | invalid
  | escaped
  | unescaped
  | sectionBegin
  | sectionEnd
  | invertedBegin
  | comment
  | inclusion
  | switch
deriving DecidableEq, Repr

namespace TagType

/-- The name of a type of tag in listings. -/
def word : TagType → String
  | .invalid => "invalid"
  | .escaped => "variable"
  | .unescaped => "unescaped_variable"
  | .sectionBegin => "section_begin"
  | .sectionEnd => "section_end"
  | .invertedBegin => "section_begin_inverted"
  | .comment => "comment"
  | .inclusion => "partial"
  | .switch => "set_delimiter"

/-- The type of tag that a sigil stands for. -/
def ofSigil? : Char → Option TagType
  | '#' => some .sectionBegin
  | '^' => some .invertedBegin
  | '/' => some .sectionEnd
  | '>' => some .inclusion
  | '&' => some .unescaped
  | '!' => some .comment
  | _ => none

/-- The type of tag with this name in listings. -/
def ofWord? (word : String) : Option TagType :=
  [invalid, escaped, unescaped, sectionBegin, sectionEnd, invertedBegin, comment, inclusion,
    switch].find? (·.word == word)

end TagType

structure Tag where
  name : String
  type : TagType := .invalid
  position : Int := 0
deriving DecidableEq, Repr

namespace Tag

def isSectionBegin (tag : Tag) : Bool :=
  tag.type == .sectionBegin || tag.type == .invertedBegin

def isSectionEnd (tag : Tag) : Bool := tag.type == .sectionEnd

/-- The tag with this text between its delimiters; `triple` if the delimiters were three braces.
The text is taken as it is, only what follows a sigil is trimmed. -/
def classify (contents : List Char) (triple : Bool) (position : Int) : Tag :=
  if triple then ⟨String.ofList contents, .unescaped, position⟩
  else
    match contents with
    | [] => ⟨"", .escaped, position⟩
    | sigil :: rest =>
      if sigil == '=' && rest.getLast? == some '=' then
        ⟨String.ofList (Text.trim rest.dropLast), .switch, position⟩
      else
        match TagType.ofSigil? sigil with
        | none => ⟨String.ofList contents, .escaped, position⟩
        | some type => ⟨String.ofList (Text.trim rest), type, position⟩

def describe (tag : Tag) : String :=
  "Tag(" ++ tag.type.word.map Char.toUpper ++ ", " ++ Text.quoted tag.name ++ ", pos="
    ++ toString tag.position ++ ")"

end Tag

end Stencil

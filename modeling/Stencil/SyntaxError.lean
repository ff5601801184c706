/-!
# Defects of a template

Each defect names the tag that shows it: where its opening delimiter stands and, unless the tag
has no end and hence no name, how it is called.
-/

set_option autoImplicit false

namespace Stencil

inductive SyntaxError
  /-- An opening delimiter with no closing delimiter after it. -/
  | unterminatedTag (position : Int)
  /-- A section end while no section is open. -/
  | unmatchedSectionEnd (name : String) (position : Int)
  /-- A section whose body does not end with a section end of the same name. -/
  | unclosedSection (name : String) (position : Int)
  /-- A tag that switches the delimiters to something other than two usable ones. -/
  | invalidDelimiters (text : String) (position : Int)
deriving DecidableEq, Repr

namespace SyntaxError

def kind : SyntaxError → String
  | .unterminatedTag _ => "unterminated_tag"
  | .unmatchedSectionEnd _ _ => "unmatched_section_end"
  | .unclosedSection _ _ => "unclosed_section"
  | .invalidDelimiters _ _ => "invalid_delimiters"

def position : SyntaxError → Int
  | .unterminatedTag position => position
  | .unmatchedSectionEnd _ position => position
  | .unclosedSection _ position => position
  | .invalidDelimiters _ position => position

def name? : SyntaxError → Option String
  | .unterminatedTag _ => none
  | .unmatchedSectionEnd name _ => some name
  | .unclosedSection name _ => some name
  | .invalidDelimiters text _ => some text

def message : SyntaxError → String
  | .unterminatedTag position =>
    "no tag end delimiter found for start delimiter at position " ++ toString position
  | .unmatchedSectionEnd name position =>
    "section end tag \"" ++ name ++ "\" found without matching start at position "
      ++ toString position
  | .unclosedSection name position =>
    "no section end tag found for section \"" ++ name ++ "\" at position " ++ toString position
  | .invalidDelimiters text position =>
    "invalid set delimiter tag \"" ++ text ++ "\" at position " ++ toString position

end SyntaxError

end Stencil

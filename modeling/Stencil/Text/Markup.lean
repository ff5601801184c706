/-!
# Escaping for markup

Five characters have a meaning in HTML text or in an attribute; each is written as an entity and
every other character as itself, so the escaped text is built character by character.
-/

set_option autoImplicit false

namespace Stencil.Text

/-- What a character is written as inside markup. -/
def entity : Char → List Char
  | '&' => "&amp;".toList
  | '<' => "&lt;".toList
  | '>' => "&gt;".toList
  | '"' => "&quot;".toList
  | '\'' => "&#x27;".toList
  | c => [c]

/-- The text with the five characters of markup written as entities. -/
def escapeMarkup (text : String) : String :=
  String.ofList (text.toList.flatMap entity)

@[simp] theorem toList_escapeMarkup (text : String) :
    (escapeMarkup text).toList = text.toList.flatMap entity := by
  simp [escapeMarkup]

end Stencil.Text

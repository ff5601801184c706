import Stencil.Text.Blank
import Stencil.SyntaxError

/-!
# Delimiters

A pair of texts between which tags stand. Neither is empty, which is what makes reading a template
move forward with every tag. A pair that a template asks for is written as two words; a word with
an equal sign in it is refused, since the tag that holds it is itself bounded by equal signs.
-/

set_option autoImplicit false

namespace Stencil

structure Delimiters where
  opening : List Char
  closing : List Char
  opening_ne_nil : opening ≠ []
  closing_ne_nil : closing ≠ []
deriving DecidableEq, Repr

namespace Delimiters

/-- Two braces on either side, with which every template starts. -/
def braces : Delimiters := ⟨['{', '{'], ['}', '}'], by simp, by simp⟩

/-- Only between braces has a third brace a meaning. -/
def isBraces (pair : Delimiters) : Bool :=
  pair.opening == braces.opening && pair.closing == braces.closing

/-- The pair that is written as these words. -/
def ofWords? : List (List Char) → Option Delimiters
  | [a :: as, b :: bs] =>
    if (a :: as).contains '=' || (b :: bs).contains '=' then none
    else some ⟨a :: as, b :: bs, by simp, by simp⟩
  | _ => none

/-- The pair that the text of a tag at this position asks for. -/
def read (text : String) (position : Int) : Except SyntaxError Delimiters :=
  match ofWords? (Text.words text.toList) with
  | some pair => .ok pair
  | none => .error (.invalidDelimiters text position)

end Delimiters

end Stencil

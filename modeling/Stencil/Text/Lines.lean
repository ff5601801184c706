/-!
# Line ends

A file may end its lines with a line feed, a carriage return, or the two together. Read as text,
each of the three is one line feed.
-/

set_option autoImplicit false

namespace Stencil.Text

/-- Every line end written as one line feed. -/
def unifyLines : List Char → List Char
  | [] => []
  | '\r' :: '\n' :: rest => '\n' :: unifyLines rest
  | c :: rest => (if c = '\r' then '\n' else c) :: unifyLines rest

end Stencil.Text

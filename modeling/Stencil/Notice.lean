import Stencil.Delimiters
import Stencil.Text.Quoted

/-!
# Notices

What happens along the way can be reported without changing any result. A notice has a level: a
warning is always worth showing, a detail only to a user who asked for it.
-/

set_option autoImplicit false

namespace Stencil

inductive Notice
  /-- A tag at this offset switched the delimiters. -/
  | switched (pair : Delimiters) (position : Nat)
  /-- A source of this length was read as a document with this many top-level nodes. -/
  | read (length topLevel : Nat)
  | unreadable (error : SyntaxError)
  | partialRead (name : String)
  | partialMissing (name : String)
  /-- A name that leads out of the directory of partials. -/
  | partialOutside (name directory : String)
  | partialNotFile (name path : String)
deriving Repr

namespace Notice

inductive Level
  | detail
  | warning
deriving DecidableEq, Repr

def Level.word : Level → String
  | .detail => "DEBUG"
  | .warning => "WARNING"

def level : Notice → Level
  | .partialOutside _ _ => .warning
  | _ => .detail

def text : Notice → String
  | .switched pair position =>
    "Switched delimiters to " ++ Text.quoted (String.ofList pair.opening) ++ " "
      ++ Text.quoted (String.ofList pair.closing) ++ " at " ++ toString position
  | .read length topLevel =>
    "Parsed template of length " ++ toString length ++ " into " ++ toString topLevel
      ++ " top-level nodes"
  | .unreadable error => "Template parse failed: " ++ error.message
  | .partialRead name => "Parsed partial '" ++ name ++ "'"
  | .partialMissing name => "Partial '" ++ name ++ "' not found, rendering nothing"
  | .partialOutside name directory =>
    "Partial '" ++ name ++ "' resolves outside " ++ directory ++ ", ignoring"
  | .partialNotFile name path => "Partial '" ++ name ++ "' not found at " ++ path

end Notice

end Stencil

import Stencil.Yaml.Timestamp

/-!
# Why a text does not denote data

Most texts that are not YAML are simply malformed. The other faults are of parts that have a form
but no meaning: a number of a character that does not exist, a truth value of an unknown word, a key
that cannot be compared. A text with several faults shows the first that is met.
-/

set_option autoImplicit false

namespace Stencil.Yaml

inductive Fault
  /-- Not YAML, or YAML that has no meaning to this reader. -/
  | malformed
  /-- A number that cannot be read, or one that would have to be written in a report. -/
  | numeral (error : NumeralError)
  | notFloat (text : String)
  /-- The text of a number in which there is nothing. -/
  | noDigits
  /-- A decimal in the older form with more than one letter that could start its exponent. -/
  | manyExponents
  /-- A whole number too large to be made a decimal. -/
  | tooLarge
  /-- The word of a truth value that is not one, in lower case. -/
  | notTruth (word : String)
  | timestamp (error : TimestampError)
  /-- The number of a character that does not exist. -/
  | notCharacter
  /-- The number of a character that is not even a number of moderate size. -/
  | farCharacter
  /-- A collection of a sort that cannot be compared, inside a key. -/
  | uncomparable (sort : String)
  /-- A key that comes twice in an ordered mapping. -/
  | repeated
  /-- Plain text in a version of the language that is not known. -/
  | unknownVersion (minor : Nat)
  /-- Nesting that is not followed to its end, such as that of a scalar inside itself. -/
  | endless
deriving DecidableEq, Repr

def Fault.message : Fault → String
  | .malformed => "invalid YAML"
  | .numeral error => error.message
  | .notFloat text => "could not convert string to float: " ++ Text.quoted text
  | .noDigits => "string index out of range"
  | .manyExponents => "too many values to unpack (expected 2)"
  | .tooLarge => "int too large to convert to float"
  | .notTruth word => Text.quoted word
  | .timestamp error => error.message
  | .notCharacter => "chr() arg not in range(0x110000)"
  | .farCharacter => "Python int too large to convert to C int"
  | .uncomparable sort => "unhashable type: '" ++ sort ++ "'"
  | .repeated => ""
  | .unknownVersion minor => "(1, " ++ toString minor ++ ")"
  | .endless => "maximum recursion depth exceeded"

/-- What there is, or nothing else than that the text is malformed. -/
def orMalformed {α : Type} : Option α → Except Fault α
  | some result => .ok result
  | none => .error .malformed

/-- A condition without which the text is malformed. -/
def check (condition : Bool) : Except Fault Unit :=
  if condition then .ok () else .error .malformed

end Stencil.Yaml

import Stencil.Number.Double
import Stencil.Text.Blank
import Stencil.Text.Digit
import Stencil.Text.Quoted

/-!
# Reading and writing numerals

`Double.read?` reads a decimal numeral with an optional sign, fraction and exponent, or one of the
names of infinity and of the value that is no number, in any case. `readInteger` reads a whole number
in some base. Both read the decimal digits of any script and pass over blanks at the two ends.
`readIndex` reads a position in a list: it is an error for a name to be made of digits and yet not to
denote a number that can be read, and the two ways to fail are told apart.

A number of very many decimal digits is neither read nor written.
-/

set_option autoImplicit false

namespace Stencil

def isWideBlank (c : Char) : Bool :=
  [0x85, 0xa0, 0x1680, 0x2028, 0x2029, 0x202f, 0x205f, 0x3000].contains c.toNat
    || (0x2000 ≤ c.toNat && c.toNat ≤ 0x200a)

/-- The ASCII character that a character of a numeral stands for, a question mark if it has no place
in one. -/
def asciiForm (c : Char) : Char :=
  if c.toNat < 0x80 then c
  else if isWideBlank c then ' '
  else
    match Text.decimalValue? c with
    | some value => Char.ofNat ('0'.toNat + value)
    | none => '?'

/-- The value of a digit of any base up to sixteen. -/
def hexValue? (c : Char) : Option Nat :=
  if c.isDigit then some (c.toNat - '0'.toNat)
  else if 'a' ≤ c && c ≤ 'f' then some (c.toNat - 'a'.toNat + 10)
  else if 'A' ≤ c && c ≤ 'F' then some (c.toNat - 'A'.toNat + 10)
  else none

/-- A run of ASCII digits at the start of a text, and the rest. -/
def spanDigits (text : List Char) : List Char × List Char :=
  (text.takeWhile Char.isDigit, text.dropWhile Char.isDigit)

/-- A sign at the start of a text: whether it is a minus, and the rest. -/
def spanSign : List Char → Bool × List Char
  | '-' :: rest => (true, rest)
  | '+' :: rest => (false, rest)
  | rest => (false, rest)

/-- The exponent that ends a numeral, zero if there is none. -/
def readExponent : List Char → Option Int
  | [] => some 0
  | e :: rest =>
    if e == 'e' || e == 'E' then
      let signed := spanSign rest
      let digits := spanDigits signed.2
      if digits.1.isEmpty || !digits.2.isEmpty then none
      else
        let size : Int := Text.decimalNumber digits.1
        some (if signed.1 then -size else size)
    else none

/-- The double nearest to the decimal that a text denotes. -/
def Double.read? (text : List Char) : Option Double :=
  let signed := spanSign (Text.trim (text.map asciiForm))
  let lower := signed.2.map Char.toLower
  if lower == "inf".toList || lower == "infinity".toList then some (.infinite signed.1)
  else if lower == "nan".toList then some .notANumber
  else
    let whole := spanDigits signed.2
    let fraction :=
      match whole.2 with
      | '.' :: rest => spanDigits rest
      | rest => ([], rest)
    if whole.1.isEmpty && fraction.1.isEmpty then none
    else
      (readExponent fraction.2).map fun exponent =>
        .ofDecimal signed.1 (Text.decimalNumber (whole.1 ++ fraction.1))
          (exponent - fraction.1.length)

/-- Why a number cannot be read or written. -/
inductive NumeralError
  /-- More decimal digits than may be read as one number. -/
  | tooLong (digits : Nat)
  /-- A number of more decimal digits than may be written. -/
  | tooLongToWrite
  /-- A text that denotes no whole number in a base. -/
  | notInteger (base : Nat) (text : String)
deriving DecidableEq, Repr

/-- The most decimal digits that are read or written as one number. -/
def numeralLimit : Nat := 4300

def NumeralError.message : NumeralError → String
  | .tooLong digits =>
    "Exceeds the limit (" ++ toString numeralLimit
      ++ " digits) for integer string conversion: value has " ++ toString digits
      ++ " digits; use sys.set_int_max_str_digits() to increase the limit"
  | .tooLongToWrite =>
    "Exceeds the limit (" ++ toString numeralLimit
      ++ " digits) for integer string conversion; use sys.set_int_max_str_digits() to increase the limit"
  | .notInteger base text =>
    "invalid literal for int() with base " ++ toString base ++ ": "
      ++ String.ofList ((Text.quoted text).toList.take 200)

/-- The position that a name made of digits denotes. -/
def readIndex (name : String) : Except NumeralError Nat :=
  let digits := name.toList.takeWhile Text.isDecimal
  if numeralLimit < digits.length then .error (.tooLong digits.length)
  else if digits.length < name.length then .error (.notInteger 10 name)
  else .ok (Text.decimalNumber digits)

/-- A digit that takes part in numerals of some base. -/
def isDigitIn (base : Nat) (c : Char) : Bool := (hexValue? c).any (· < base)

/-- What is left of a numeral after the mark of its base, a zero and a letter. The mark may be left
out. -/
def dropBaseMark (base : Nat) : List Char → List Char
  | '0' :: c :: rest =>
    let marks := (base = 16 && c.toLower == 'x') || (base = 8 && c.toLower == 'o')
      || (base = 2 && c.toLower == 'b')
    if marks then rest else '0' :: c :: rest
  | text => text

/-- The whole number that a text denotes in a base. Only decimal numerals can be too long. -/
def readInteger (base : Nat) (text : String) : Except NumeralError Int :=
  let signed := spanSign (Text.trim (text.toList.map asciiForm))
  let numeral := dropBaseMark base signed.2
  let digits := numeral.takeWhile (isDigitIn base)
  if base = 10 && numeralLimit < digits.length then .error (.tooLong digits.length)
  else if digits.isEmpty || digits.length < numeral.length then .error (.notInteger base text)
  else
    let size : Int := digits.foldl (fun n c => n * base + (hexValue? c).getD 0) 0
    .ok (if signed.1 then -size else size)

def writeInteger (value : Int) : Except NumeralError String :=
  if value.natAbs < Nat.pow 10 numeralLimit then .ok (toString value) else .error .tooLongToWrite

end Stencil

import Stencil.Data.Literal
import Stencil.Text.Base64
import Stencil.Text.Lower
import Stencil.Yaml.Kind

/-!
# What YAML scalars stand for

A scalar is read by its kind, whether its text has a form of that kind or a tag has made it one. So
the text can be anything, and what denotes nothing is a fault of its own sort.

Underscores in numbers have no meaning. In the older version of the language a leading zero asks for
base eight, and colons separate the digits of base sixty.
-/

set_option autoImplicit false

namespace Stencil.Yaml

/-- The text of a number without the marks that group digits. -/
def ungroup (text : String) : List Char := text.toList.filter (· != '_')

/-- The sign of a number, and what comes after it. -/
def signed (text : List Char) : Except Fault (Bool × List Char) :=
  if text.isEmpty then .error .noDigits else .ok (spanSign text)

def colonParts (text : List Char) : List (List Char) :=
  let parts := Text.split (· == ':') text
  parts.1 :: parts.2

/-! ## Whole numbers -/

def readDigitsIn (base : Nat) (digits : List Char) : Except Fault Int :=
  (readInteger base (String.ofList digits)).mapError .numeral

/-- The number without a sign that a text denotes in the older version. -/
def readOlderInt (text : List Char) : Except Fault Int :=
  match text with
  | [] => .error .noDigits
  | '0' :: _ => readDigitsIn 8 text
  | _ =>
    (colonParts text).foldlM (fun value part => (readDigitsIn 10 part).map (value * 60 + ·)) 0

def readInt (minor : Nat) (text : String) : Except Fault Int := do
  let (negative, body) ← signed (ungroup text)
  let size ←
    match body with
    | '0' :: 'b' :: digits => readDigitsIn 2 digits
    | '0' :: 'o' :: digits => readDigitsIn 8 digits
    | '0' :: 'x' :: digits => readDigitsIn 16 digits
    | _ => if minor = 1 then readOlderInt body else readDigitsIn 10 body
  return if negative then -size else size

/-! ## Decimals -/

def readDecimal (text : List Char) : Except Fault Double :=
  match Double.read? text with
  | some value => .ok value
  | none => .error (.notFloat (String.ofList text))

/-- The sum of digits of base sixty, lowest first, each times its power. -/
def sumSixties : Nat → Double → List Double → Except Fault Double
  | _, total, [] => .ok total
  | place, total, digit :: rest =>
    match Double.ofRatio false (Nat.pow 60 place) 1 with
    | .infinite _ => .error .tooLarge
    | power => sumSixties (place + 1) (total.add (digit.multiply power)) rest

/-- The decimal without a sign that a text denotes in versions other than the current. -/
def readOlderFloat (text : List Char) : Except Fault Double := do
  if text.contains ':' then
    let digits ← (colonParts text).mapM readDecimal
    sumSixties 0 (.finite false 0 (-1074)) digits.reverse
  else if 1 < text.count 'e' then throw .manyExponents
  else readDecimal text

/-- The name of what is no number, after any sign. -/
def notANumberName : List Char := ".nan".toList

def readFloat (minor : Nat) (text : String) : Except Fault Double := do
  let (negative, body) ← signed (Text.lower (ungroup text))
  let value ←
    if body == ".inf".toList then pure (.infinite false)
    else if body == notANumberName then pure .notANumber
    else if minor = currentMinor then readDecimal body
    else readOlderFloat body
  return if negative then value.negate else value

/-- Whether a text names what is no number, rather than being read as a decimal that is none. -/
def namesNotANumber (text : String) : Bool :=
  (spanSign (Text.lower (ungroup text))).2 == notANumberName

/-! ## Other scalars -/

def readBool (text : String) : Except Fault Bool :=
  let lower := String.ofList (Text.lower text.toList)
  if ["true", "yes", "y", "on"].contains lower then .ok true
  else if ["false", "no", "n", "off"].contains lower then .ok false
  else .error (.notTruth lower)

def foreignBytes (bytes : List UInt8) : Foreign :=
  let text := Text.quotedBytes bytes
  ⟨"bytes", text, text, text, !bytes.isEmpty⟩

def readBinary (text : String) : Except Fault Foreign :=
  if text.toList.all fun c => c.toNat < 0x80 then
    orMalformed ((Text.Base64.decode? text.toList).map foreignBytes)
  else .error .malformed

def readTimestamp (text : String) : Except Fault Foreign :=
  match Timestamp.read? text.toList with
  | none => .error .malformed
  | some stamp => stamp.toForeign.mapError .timestamp

/-- What a scalar of a kind stands for. -/
def readScalar (minor : Nat) (kind : Kind) (text : String) : Except Fault Scalar :=
  match kind with
  | .null => .ok .null
  | .bool => (readBool text).map .bool
  | .int => (readInt minor text).map .int
  | .float => (readFloat minor text).map .float
  | .text => .ok (.text text)
  | .binary => (readBinary text).map .foreign
  | .timestamp => (readTimestamp text).map .foreign
  | _ => .error .malformed

end Stencil.Yaml

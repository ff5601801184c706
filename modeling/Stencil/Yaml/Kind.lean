import Stencil.Yaml.Fault

/-!
# Kinds of YAML nodes

What a node stands for is its kind. A tag names the kind; plain text without a tag shows it by how
it is written, and everything else that has no tag is text, or a collection of its own sort.

A written form belongs to one kind at most. The version of the language decides which forms there
are. In the current version words such as `yes` and `on` are text, a leading zero means nothing, and
digits can be grouped by underscores; in the version before it such words are truth values, a leading
zero asks for base eight, and colons separate the digits of base sixty.

A line break may follow any written form but the empty one.
-/

set_option autoImplicit false

namespace Stencil.Yaml

/-- The minor number of the version of the language that is read unless a directive gives one. -/
def currentMinor : Nat := 2

inductive Kind
  | null
  | bool
  | int
  | float
  | timestamp
  | text
  | binary
  /-- The key under which the entries of other mappings are taken over. -/
  | merge
  /-- The key of what a mapping stands for where a scalar is asked for. -/
  | default
  | sequence
  | mapping
  | set
  /-- A mapping written as a sequence of entries. -/
  | ordered
  /-- A sequence of keys with values. -/
  | pairs
  /-- A kind that this reader does not know. -/
  | unknown
deriving DecidableEq, Repr

/-- What the tags of the known kinds start with. -/
def standardTags : String := "tag:yaml.org,2002:"

def Kind.ofWord : String → Kind
  | "null" => .null
  | "bool" => .bool
  | "int" => .int
  | "float" => .float
  | "timestamp" => .timestamp
  | "str" => .text
  | "binary" => .binary
  | "merge" => .merge
  | "value" => .default
  | "seq" => .sequence
  | "map" => .mapping
  | "set" => .set
  | "omap" => .ordered
  | "pairs" => .pairs
  | _ => .unknown

def Kind.ofTag (tag : String) : Kind :=
  if tag.startsWith standardTags then .ofWord (tag.drop standardTags.length).toString else .unknown

/-! ## Written forms -/

def isDigitOrGap (c : Char) : Bool := c.isDigit || c == '_'

/-- A non-empty run of characters of a kind, and nothing else. -/
def isRun (test : Char → Bool) (text : List Char) : Bool := !text.isEmpty && text.all test

/-- An exponent, whose sign may be required. -/
def isExponent (signRequired : Bool) : List Char → Bool
  | e :: rest =>
    (e == 'e' || e == 'E') &&
      match rest with
      | '+' :: digits => isRun Char.isDigit digits
      | '-' :: digits => isRun Char.isDigit digits
      | digits => !signRequired && isRun Char.isDigit digits
  | [] => false

/-- A digit of base sixty, of one decimal digit or of two. -/
def isSixtiethDigit : List Char → Bool
  | [a] => a.isDigit
  | [a, b] => a.isDigit && a < '6' && b.isDigit
  | _ => false

/-- A whole number in base sixty, with a colon before every digit but the first, which can be any
number. -/
def isSixtiesText (text : List Char) : Bool :=
  let parts := Text.split (· == ':') text
  parts.1.head?.any Char.isDigit && parts.1.all isDigitOrGap && !parts.2.isEmpty
    && parts.2.all isSixtiethDigit

/-- A number with a fraction, an exponent or both, or the name of infinity or of what is no number.
A number that starts with its point needs a sign in its exponent. In the older form such a number has
no sign of its own, and the digits before the point can be of base sixty. -/
def isFloatText (older : Bool) (text : List Char) : Bool :=
  let body := (spanSign text).2
  match body with
  | '.' :: rest =>
    let after := rest.dropWhile isDigitOrGap
    let bare := text == body
    ["inf", "Inf", "INF"].contains (String.ofList rest)
      || ["nan", "NaN", "NAN"].contains (String.ofList rest) && bare
      || after.length < rest.length && (bare || !older) && (after.isEmpty || isExponent true after)
  | c :: rest =>
    c.isDigit &&
      match rest.dropWhile isDigitOrGap with
      | '.' :: fraction =>
        let after := fraction.dropWhile isDigitOrGap
        after.isEmpty || isExponent false after
      | ':' :: _ =>
        match body.dropWhile (· != '.') with
        | '.' :: fraction =>
          older && isSixtiesText (body.takeWhile (· != '.')) && fraction.all isDigitOrGap
        | _ => false
      | after => isExponent false after
  | [] => false

/-- A hexadecimal digit or the mark that groups digits. -/
def isHexOrGap (c : Char) : Bool :=
  isDigitOrGap c || ('a' ≤ c && c ≤ 'f') || ('A' ≤ c && c ≤ 'F')

/-- A digit of base eight or the mark that groups digits. -/
def isOctalOrGap (c : Char) : Bool := ('0' ≤ c && c ≤ '7') || c == '_'

/-- A whole number in base ten, or after a zero and a letter in another base. In the older form base
eight needs no letter, base ten no leading zero, and there is base sixty. -/
def isIntText (older : Bool) (text : List Char) : Bool :=
  let starts := text.head?.any fun c => c.isDigit || c == '+' || c == '-'
  starts &&
    match (spanSign text).2 with
    | '0' :: 'b' :: digits => isRun (fun c => c == '0' || c == '1' || c == '_') digits
    | '0' :: 'x' :: digits => isRun isHexOrGap digits
    | '0' :: 'o' :: digits => !older && isRun isOctalOrGap digits
    | digits =>
      if older then
        isRun isOctalOrGap digits
          || (digits.head?.any fun c => c.isDigit && c != '0')
            && (digits.all isDigitOrGap || isSixtiesText digits)
      else isRun isDigitOrGap digits

def truthWords (older : Bool) : List String :=
  ["true", "True", "TRUE", "false", "False", "FALSE"] ++
    if older then
      ["y", "Y", "yes", "Yes", "YES", "n", "N", "no", "No", "NO", "on", "On", "ON", "off", "Off",
        "OFF"]
    else []

/-- The kind that plain text shows by how it is written. An indicator of the language by itself shows
that something is meant, but not what. -/
def Kind.ofForm (older : Bool) (text : String) : Kind :=
  let chars := dropLineEnd text.toList
  let word := String.ofList chars
  if text.isEmpty then .null
  else if chars.isEmpty then .text
  else if (truthWords older).contains word then .bool
  else if isFloatText older chars then .float
  else if isIntText older chars then .int
  else if word == "<<" then .merge
  else if ["~", "null", "Null", "NULL"].contains word then .null
  else if isTimestampText text.toList then .timestamp
  else if word == "=" then .default
  else if ["!", "&", "*"].contains word then .unknown
  else .text

/-- The kind of plain text in a version of the language. Only two minor versions are known. -/
def Kind.ofText (minor : Nat) (text : String) : Except Fault Kind :=
  if minor = currentMinor then .ok (.ofForm false text)
  else if minor = 1 then .ok (.ofForm true text)
  else .error (.unknownVersion minor)

end Stencil.Yaml

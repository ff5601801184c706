/-!
# Bytes written in base 64

Four digits, each of six bits, stand for three bytes. At the end two or three digits, filled up to
four by equals signs, stand for one or two bytes. Reading passes over characters that are neither,
such as line breaks, and takes no notice of what comes after the filling.
-/

set_option autoImplicit false

namespace Stencil.Text.Base64

def digit? (c : Char) : Option Nat :=
  if c.isUpper then some (c.toNat - 'A'.toNat)
  else if c.isLower then some (c.toNat - 'a'.toNat + 26)
  else if c.isDigit then some (c.toNat - '0'.toNat + 52)
  else if c == '+' then some 62
  else if c == '/' then some 63
  else none

/-- The bytes that two, three or four digits stand for, one less than there are digits. -/
def groupBytes (digits : List Nat) : List UInt8 :=
  let value := (digits ++ List.replicate (4 - digits.length) 0).foldl (fun n digit => n * 64 + digit) 0
  [(value / 65536).toUInt8, (value / 256).toUInt8, value.toUInt8].take (digits.length - 1)

/-- Goes on with some digits of a group, and some equals signs after them. -/
def decodeFrom (digits : List Nat) (filling : Nat) : List Char → Option (List UInt8)
  | [] => if digits.isEmpty then some [] else none
  | c :: rest =>
    if c == '=' then
      if digits.length < 2 then decodeFrom digits filling rest
      else if 4 ≤ digits.length + filling + 1 then some (groupBytes digits)
      else decodeFrom digits (filling + 1) rest
    else
      match digit? c with
      | none => decodeFrom digits filling rest
      | some digit =>
        let digits := digits ++ [digit]
        if digits.length = 4 then (decodeFrom [] 0 rest).map (groupBytes digits ++ ·)
        else decodeFrom digits 0 rest

/-- The bytes that a text stands for, unless its last group is incomplete. -/
def decode? (text : List Char) : Option (List UInt8) := decodeFrom [] 0 text

end Stencil.Text.Base64

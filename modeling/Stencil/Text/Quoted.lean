import Stencil.Text.Printable

/-!
# Quoted text

A text in quotes, with every character that could not be read off a line written as an escape.
The quote is the single one unless the text holds single quotes and no double ones, so at most one
of the two kinds is ever escaped.
-/

set_option autoImplicit false

namespace Stencil.Text

/-- The lower case hexadecimal digits of a number, at least `width` of them. -/
def hexDigits (width n : Nat) : List Char :=
  let digits := Nat.toDigits 16 n
  List.replicate (width - digits.length) '0' ++ digits

def quotedChar (quote c : Char) : List Char :=
  if c == quote || c == '\\' then ['\\', c]
  else if c == '\n' then ['\\', 'n']
  else if c == '\r' then ['\\', 'r']
  else if c == '\t' then ['\\', 't']
  else if isPrintable c then [c]
  else if c.toNat < 0x100 then ['\\', 'x'] ++ hexDigits 2 c.toNat
  else if c.toNat < 0x10000 then ['\\', 'u'] ++ hexDigits 4 c.toNat
  else ['\\', 'U'] ++ hexDigits 8 c.toNat

/-- The quote that a text is put in. -/
def quoteFor (text : List Char) : Char :=
  if text.contains '\'' && !text.contains '"' then '"' else '\''

def quoted (text : String) : String :=
  let quote := quoteFor text.toList
  String.ofList (quote :: text.toList.flatMap (quotedChar quote) ++ [quote])

/-- Bytes in quotes, after a letter that tells them from text. Bytes that are no printable ASCII
characters are escaped. -/
def quotedBytes (bytes : List UInt8) : String :=
  let chars := bytes.map fun byte => Char.ofNat byte.toNat
  let quote := quoteFor chars
  let piece (c : Char) : List Char :=
    if c.toNat < 0x80 then quotedChar quote c else ['\\', 'x'] ++ hexDigits 2 c.toNat
  String.ofList ('b' :: quote :: chars.flatMap piece ++ [quote])

end Stencil.Text

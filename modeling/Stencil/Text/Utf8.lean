import Stencil.Text.Quoted

/-!
# Reading UTF-8

Bytes are read as characters from the left. Reading ends at the first sequence that no character
is encoded by; the fault says where that sequence starts, how many bytes of it were good, and what
was wrong with the next one. A sequence that the bytes end in the middle of is a fault of its own.

The second byte decides more than the others: after `E0`, `ED`, `F0` and `F4` only part of the
continuation bytes is allowed, so that no character has two encodings and none lies outside the
range of code points.
-/

set_option autoImplicit false

namespace Stencil.Text.Utf8

inductive Reason
  | invalidStart
  | invalidContinuation
  | unexpectedEnd
deriving DecidableEq, Repr

def Reason.text : Reason → String
  | .invalidStart => "invalid start byte"
  | .invalidContinuation => "invalid continuation byte"
  | .unexpectedEnd => "unexpected end of data"

/-- Bytes that are not UTF-8: the first offending byte, its offset, and how many bytes from there
on belong to the fault. -/
structure Fault where
  byte : UInt8
  offset : Nat
  count : Nat
  reason : Reason
deriving DecidableEq, Repr

def Fault.message (fault : Fault) : String :=
  let place :=
    if fault.count = 1 then
      "byte 0x" ++ String.ofList (hexDigits 2 fault.byte.toNat) ++ " in position "
        ++ toString fault.offset
    else
      "bytes in position " ++ toString fault.offset ++ "-"
        ++ toString (fault.offset + fault.count - 1)
  "'utf-8' codec can't decode " ++ place ++ ": " ++ fault.reason.text

/-- A byte that may stand second or later in a sequence. -/
def isContinuation (b : UInt8) : Bool := 0x80 ≤ b && b ≤ 0xBF

/-- A byte that may stand second in a sequence with this lead byte. -/
def isSecond (lead b : UInt8) : Bool :=
  isContinuation b && !(lead == 0xE0 && b < 0xA0) && !(lead == 0xED && 0xA0 ≤ b)
    && !(lead == 0xF0 && b < 0x90) && !(lead == 0xF4 && 0x90 ≤ b)

/-- The six low bits that a continuation byte carries. -/
def payload (b : UInt8) : Nat := b.toNat % 64

/-- Reads from `offset` on; the characters read so far are in reverse. -/
def readFrom (read : List Char) (offset : Nat) : List UInt8 → Except Fault (List Char)
  | [] => .ok read.reverse
  | a :: rest =>
    if a < 0x80 then readFrom (Char.ofNat a.toNat :: read) (offset + 1) rest
    else if a < 0xC2 || 0xF5 ≤ a then .error ⟨a, offset, 1, .invalidStart⟩
    else
      match rest with
      | [] => .error ⟨a, offset, 1, .unexpectedEnd⟩
      | b :: rest =>
        if !isSecond a b then .error ⟨a, offset, 1, .invalidContinuation⟩
        else if a < 0xE0 then
          readFrom (Char.ofNat (a.toNat % 32 * 64 + payload b) :: read) (offset + 2) rest
        else
          match rest with
          | [] => .error ⟨a, offset, 2, .unexpectedEnd⟩
          | c :: rest =>
            if !isContinuation c then .error ⟨a, offset, 2, .invalidContinuation⟩
            else if a < 0xF0 then
              let point := (a.toNat % 16 * 64 + payload b) * 64 + payload c
              readFrom (Char.ofNat point :: read) (offset + 3) rest
            else
              match rest with
              | [] => .error ⟨a, offset, 3, .unexpectedEnd⟩
              | d :: rest =>
                if !isContinuation d then .error ⟨a, offset, 3, .invalidContinuation⟩
                else
                  let point :=
                    ((a.toNat % 8 * 64 + payload b) * 64 + payload c) * 64 + payload d
                  readFrom (Char.ofNat point :: read) (offset + 4) rest

/-- The characters that the bytes encode, or where they stop being UTF-8. -/
def decode (bytes : List UInt8) : Except Fault (List Char) :=
  readFrom [] 0 bytes

def encodeChar (c : Char) : List UInt8 :=
  let n := c.toNat
  if n < 0x80 then [n.toUInt8]
  else if n < 0x800 then [(0xC0 + n / 64).toUInt8, (0x80 + n % 64).toUInt8]
  else if n < 0x10000 then
    [(0xE0 + n / 4096).toUInt8, (0x80 + n / 64 % 64).toUInt8, (0x80 + n % 64).toUInt8]
  else
    [(0xF0 + n / 262144).toUInt8, (0x80 + n / 4096 % 64).toUInt8, (0x80 + n / 64 % 64).toUInt8,
      (0x80 + n % 64).toUInt8]

def encode (text : List Char) : List UInt8 := text.flatMap encodeChar

end Stencil.Text.Utf8

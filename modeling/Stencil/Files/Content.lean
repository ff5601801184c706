import Stencil.Text.Lines
import Stencil.Text.Utf8

/-!
# Files read as text

A file holds bytes. Read as text they are UTF-8, and every line end is one line feed; a byte order
mark is a character like any other.

A file can be read whole or piece by piece. The text is the same, but a fault in it is placed from
the start of what was read at once: of the piece, with the start of a character that the piece
before ended in the middle of.
-/

set_option autoImplicit false

namespace Stencil.Files

def textOf (bytes : List UInt8) : Except Text.Utf8.Fault String :=
  match Text.Utf8.decode bytes with
  | .ok chars => .ok (String.ofList (Text.unifyLines chars))
  | .error fault => .error fault

/-- The most bytes that are read at once. -/
def pieceSize : Nat := 8192

/-- Decodes the bytes that are left, piece by piece, after the start of a character; the text so far
is in reverse. -/
def decodePieces : Nat → List (List Char) → List UInt8 → List UInt8 →
    Except Text.Utf8.Fault (List (List Char))
  | 0, read, _, _ => .ok read
  | fuel + 1, read, started, bytes =>
    let piece := started ++ bytes.take pieceSize
    match Text.Utf8.decode piece with
    | .ok chars =>
      if bytes.isEmpty then .ok (chars :: read)
      else decodePieces fuel (chars :: read) [] (bytes.drop pieceSize)
    | .error fault =>
      if fault.reason != .unexpectedEnd || bytes.isEmpty then .error fault
      else
        match Text.Utf8.decode (piece.take fault.offset) with
        | .ok chars =>
          decodePieces fuel (chars :: read) (piece.drop fault.offset) (bytes.drop pieceSize)
        | .error fault => .error fault

/-- The text that bytes are read as, piece by piece. -/
def textOfPieces (bytes : List UInt8) : Except Text.Utf8.Fault String :=
  match decodePieces (bytes.length / pieceSize + 3) [] [] bytes with
  | .ok read => .ok (String.ofList (Text.unifyLines read.reverse.flatten))
  | .error fault => .error fault

end Stencil.Files

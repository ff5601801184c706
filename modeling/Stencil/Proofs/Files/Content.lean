import Stencil.Files.Content
import Stencil.Proofs.Text.Utf8

/-!
# Which files have a text

Bytes have a text if they are the UTF-8 of one (`IsText`). Such bytes can be read, and where they are
parted makes no difference to that: a character that a piece ends in the middle of is read with the next
piece (`exists_decodePieces`).
-/

set_option autoImplicit false

namespace Stencil.Files

open Text

/-- The bytes are those of a text. -/
def IsText (bytes : List UInt8) : Prop := ∃ text, bytes = Utf8.encode text

theorem exists_decodePieces (fuel : Nat) (read : List (List Char)) (started bytes : List UInt8)
    {all : List Char} (h : Utf8.decode (started ++ bytes) = .ok all) :
    ∃ pieces, decodePieces fuel read started bytes = .ok pieces := by
  induction fuel generalizing read started bytes all with
  | zero => exact ⟨read, rfl⟩
  | succ fuel ih =>
    -- what was left over from the last piece and the next piece are decoded together
    have hparts : started ++ bytes = started ++ bytes.take pieceSize ++ bytes.drop pieceSize := by
      rw [List.append_assoc, List.take_append_drop]
    rw [hparts] at h
    have hempty : bytes.isEmpty = true → bytes.drop pieceSize = [] := by
      intro hb
      rw [List.isEmpty_iff.1 hb, List.drop_nil]
    rw [decodePieces]
    generalize started ++ bytes.take pieceSize = piece at h
    generalize bytes.drop pieceSize = rest at h hempty ⊢
    cases hp : Utf8.decode piece with
    | ok chars =>
      cases hb : bytes.isEmpty with
      | true => exact ⟨_, rfl⟩
      | false =>
        -- the piece ends where a character does, so what comes after it is text by itself
        obtain ⟨later, hlater⟩ :=
          Utf8.exists_readFrom ((Utf8.readFrom_append rest hp).symm.trans h) [] 0
        exact ih _ [] rest hlater
    | error fault =>
      -- all of it is text, so a fault in a piece of it can only be a character that is cut off
      obtain ⟨hreason, count, chars, hoffset, htake⟩ := Utf8.of_readFrom_error hp h
      obtain rfl : fault.offset = count := hoffset.trans (Nat.zero_add count)
      cases hb : bytes.isEmpty with
      | true =>
        rw [hempty hb, List.append_nil, hp] at h
        cases h
      | false =>
        have hstarted : Utf8.decode (piece.take fault.offset) = .ok chars := htake
        rw [← List.take_append_drop fault.offset piece, List.append_assoc] at h
        obtain ⟨later, hlater⟩ := Utf8.exists_readFrom
          ((Utf8.readFrom_append (piece.drop fault.offset ++ rest) htake).symm.trans h) [] 0
        simp only [hreason, bne_self_eq_false, Bool.or_self, Bool.false_eq_true, if_false, hstarted]
        exact ih _ (piece.drop fault.offset) rest hlater

/-- Whole, a text can be read. -/
theorem not_isText_of_textOf {bytes : List UInt8} {fault : Utf8.Fault}
    (h : textOf bytes = .error fault) : ¬ IsText bytes := by
  rintro ⟨text, rfl⟩
  rw [textOf, Utf8.decode_encode] at h
  cases h

/-- Piece by piece, a text can be read. -/
theorem not_isText_of_textOfPieces {bytes : List UInt8} {fault : Utf8.Fault}
    (h : textOfPieces bytes = .error fault) : ¬ IsText bytes := by
  rintro ⟨text, rfl⟩
  obtain ⟨pieces, hpieces⟩ := exists_decodePieces ((Utf8.encode text).length / pieceSize + 3) [] []
    (Utf8.encode text) (Utf8.decode_encode text)
  rw [textOfPieces, hpieces] at h
  cases h

end Stencil.Files

import Stencil.Text.Utf8

/-!
# Reading UTF-8 one character at a time

Some bytes are characters from the left on, up to their end, to bytes that no character starts with, or
to a character that is cut off (`Scanned`). Where a character is does not depend on what was read before,
nor on what comes later. So reading goes on after what has been read (`readFrom_append`), and a start of
bytes that are UTF-8 is UTF-8 itself, up to a character that is cut off at its end
(`of_readFrom_error`).

What can be read is what can be written: the bytes that encode a text are read as that text
(`decode_encode`).
-/

set_option autoImplicit false

namespace Stencil.Text.Utf8

/-! ## One character -/

section Lengths

variable {a b c d : UInt8} (read : List Char) (offset : Nat) (later : List UInt8)

theorem readFrom_nil : readFrom read offset [] = .ok read.reverse := readFrom.eq_def read offset []

theorem readFrom_one (ha : a < 0x80) :
    readFrom read offset (a :: later) = readFrom (Char.ofNat a.toNat :: read) (offset + 1) later := by
  rw [readFrom.eq_def]
  exact if_pos ha

variable (hascii : ¬ a < 0x80) (hstart : ¬ (a < 0xC2 || 0xF5 ≤ a) = true) (hb : isSecond a b = true)

include hascii hstart hb

theorem readFrom_two (ha : a < 0xE0) :
    readFrom read offset (a :: b :: later) =
      readFrom (Char.ofNat (a.toNat % 32 * 64 + payload b) :: read) (offset + 2) later := by
  rw [readFrom.eq_def]
  simp only [if_neg hascii, if_neg hstart, hb, Bool.not_true, Bool.false_eq_true, if_false, if_pos ha]

variable (htwo : ¬ a < 0xE0) (hc : isContinuation c = true)

include htwo hc

theorem readFrom_three (ha : a < 0xF0) :
    readFrom read offset (a :: b :: c :: later) =
      readFrom (Char.ofNat ((a.toNat % 16 * 64 + payload b) * 64 + payload c) :: read) (offset + 3)
        later := by
  rw [readFrom.eq_def]
  simp only [if_neg hascii, if_neg hstart, hb, hc, Bool.not_true, Bool.false_eq_true, if_false,
    if_neg htwo, if_pos ha]

theorem readFrom_four (ha : ¬ a < 0xF0) (hd : isContinuation d = true) :
    readFrom read offset (a :: b :: c :: d :: later) =
      readFrom (Char.ofNat (((a.toNat % 8 * 64 + payload b) * 64 + payload c) * 64 + payload d) :: read)
        (offset + 4) later := by
  rw [readFrom.eq_def]
  simp only [if_neg hascii, if_neg hstart, hb, hc, hd, Bool.not_true, Bool.false_eq_true, if_false,
    if_neg htwo, if_neg ha]

end Lengths

/-! ## From the left on -/

/-- What there is in some bytes, from the left on. -/
inductive Scanned : List UInt8 → Prop
  | done : Scanned []
  | character {bytes rest : List UInt8} (char : Char)
    (h : ∀ read offset later,
      readFrom read offset (bytes ++ later) = readFrom (char :: read) (offset + bytes.length) later)
    (next : Scanned rest) : Scanned (bytes ++ rest)
  | broken {bytes : List UInt8} (byte : UInt8) (count : Nat) (reason : Reason)
    (hr : reason ≠ .unexpectedEnd)
    (h : ∀ read offset later,
      readFrom read offset (bytes ++ later) = .error ⟨byte, offset, count, reason⟩) : Scanned bytes
  | cut {bytes : List UInt8} (byte : UInt8) (count : Nat)
    (h : ∀ read offset, readFrom read offset bytes = .error ⟨byte, offset, count, .unexpectedEnd⟩) :
    Scanned bytes

theorem scanned : (bytes : List UInt8) → Scanned bytes
  | [] => .done
  | a :: rest => by
    by_cases hascii : a < 0x80
    · show Scanned ([a] ++ rest)
      exact .character _ (fun read offset later => readFrom_one read offset later hascii) (scanned rest)
    by_cases hstart : (a < 0xC2 || 0xF5 ≤ a) = true
    · refine .broken a 1 .invalidStart nofun fun read offset later => ?_
      rw [List.cons_append, readFrom.eq_def]
      simp only [if_neg hascii, if_pos hstart]
    -- after a byte that starts a character, the next byte may be missing, wrong or right, and so on for
    -- each of the others
    cases rest with
    | nil =>
      refine .cut a 1 fun read offset => ?_
      rw [readFrom.eq_def]
      simp only [if_neg hascii, if_neg hstart]
    | cons b rest =>
      cases hb : isSecond a b with
      | false =>
        refine .broken a 1 .invalidContinuation nofun fun read offset later => ?_
        rw [List.cons_append, List.cons_append, readFrom.eq_def]
        simp only [if_neg hascii, if_neg hstart, hb, Bool.not_false, if_true]
      | true =>
        by_cases htwo : a < 0xE0
        · show Scanned ([a, b] ++ rest)
          exact .character _
            (fun read offset later => readFrom_two read offset later hascii hstart hb htwo) (scanned rest)
        cases rest with
        | nil =>
          refine .cut a 2 fun read offset => ?_
          rw [readFrom.eq_def]
          simp only [if_neg hascii, if_neg hstart, hb, Bool.not_true, Bool.false_eq_true, if_false,
            if_neg htwo]
        | cons c rest =>
          cases hc : isContinuation c with
          | false =>
            refine .broken a 2 .invalidContinuation nofun fun read offset later => ?_
            rw [List.cons_append, List.cons_append, List.cons_append, readFrom.eq_def]
            simp only [if_neg hascii, if_neg hstart, hb, hc, Bool.not_true, Bool.not_false,
              Bool.false_eq_true, if_false, if_neg htwo, if_true]
          | true =>
            by_cases hthree : a < 0xF0
            · show Scanned ([a, b, c] ++ rest)
              exact .character _ (fun read offset later =>
                readFrom_three read offset later hascii hstart hb htwo hc hthree) (scanned rest)
            cases rest with
            | nil =>
              refine .cut a 3 fun read offset => ?_
              rw [readFrom.eq_def]
              simp only [if_neg hascii, if_neg hstart, hb, hc, Bool.not_true, Bool.false_eq_true,
                if_false, if_neg htwo, if_neg hthree]
            | cons d rest =>
              cases hd : isContinuation d with
              | false =>
                refine .broken a 3 .invalidContinuation nofun fun read offset later => ?_
                rw [List.cons_append, List.cons_append, List.cons_append, List.cons_append,
                  readFrom.eq_def]
                simp only [if_neg hascii, if_neg hstart, hb, hc, hd, Bool.not_true, Bool.not_false,
                  Bool.false_eq_true, if_false, if_neg htwo, if_neg hthree, if_true]
              | true =>
                show Scanned ([a, b, c, d] ++ rest)
                exact .character _ (fun read offset later =>
                  readFrom_four read offset later hascii hstart hb htwo hc hthree hd) (scanned rest)

/-- What comes later is read after what came first. -/
theorem readFrom_append (later : List UInt8) {bytes : List UInt8} {read chars : List Char}
    {offset : Nat} (h : readFrom read offset bytes = .ok chars) :
    readFrom read offset (bytes ++ later) = readFrom chars.reverse (offset + bytes.length) later := by
  -- by characters and not by bytes, since inside a character there is no place to stop
  induction scanned bytes generalizing read offset with
  | done =>
    rw [readFrom_nil] at h
    obtain rfl := Except.ok.inj h
    rw [List.reverse_reverse]
    rfl
  | @character bytes rest char hread _ ih =>
    rw [hread] at h
    rw [List.append_assoc, hread, ih h, List.length_append, Nat.add_assoc]
  | @broken bytes byte count reason _ herror =>
    rw [← List.append_nil bytes, herror] at h
    cases h
  | cut byte count herror =>
    rw [herror] at h
    cases h

/-- If bytes are UTF-8 that start with these, then these are UTF-8 up to a character that is cut off at
their end. -/
theorem of_readFrom_error {later bytes : List UInt8} {read all : List Char} {offset : Nat}
    {fault : Fault} (h : readFrom read offset bytes = .error fault)
    (hall : readFrom read offset (bytes ++ later) = .ok all) :
    fault.reason = .unexpectedEnd ∧ ∃ count chars, fault.offset = offset + count ∧
      readFrom read offset (bytes.take count) = .ok chars := by
  induction scanned bytes generalizing read offset with
  | done =>
    rw [readFrom_nil] at h
    cases h
  | @character bytes rest char hread _ ih =>
    rw [hread] at h
    rw [List.append_assoc, hread] at hall
    obtain ⟨hreason, count, chars, hoffset, htake⟩ := ih h hall
    refine ⟨hreason, bytes.length + count, chars, ?_, ?_⟩
    · rw [hoffset, Nat.add_assoc]
    · rw [List.take_length_add_append, hread]
      exact htake
  | broken byte count reason hr herror =>
    rw [herror] at hall
    cases hall
  | cut byte count herror =>
    rw [herror] at h
    obtain rfl := Except.error.inj h
    exact ⟨rfl, 0, read.reverse, rfl, readFrom_nil read offset⟩

/-- Whether bytes can be read does not depend on what was read before them. -/
theorem exists_readFrom {bytes : List UInt8} {read chars : List Char} {offset : Nat}
    (h : readFrom read offset bytes = .ok chars) (other : List Char) (place : Nat) :
    ∃ result, readFrom other place bytes = .ok result := by
  induction scanned bytes generalizing read offset other place with
  | done => exact ⟨_, readFrom_nil other place⟩
  | character char hread _ ih =>
    rw [hread] at h ⊢
    exact ih h _ _
  | @broken bytes byte count reason _ herror =>
    rw [← List.append_nil bytes, herror] at h
    cases h
  | cut byte count herror =>
    rw [herror] at h
    cases h

/-! ## Reading what has been written -/

theorem isContinuation_iff {b : UInt8} :
    isContinuation b = true ↔ 0x80 ≤ b.toNat ∧ b.toNat ≤ 0xBF := by
  simp [isContinuation, UInt8.le_iff_toNat_le]

theorem isSecond_iff {a b : UInt8} :
    isSecond a b = true ↔ 0x80 ≤ b.toNat ∧ b.toNat ≤ 0xBF ∧ (a.toNat = 0xE0 → 0xA0 ≤ b.toNat) ∧
      (a.toNat = 0xED → b.toNat < 0xA0) ∧ (a.toNat = 0xF0 → 0x90 ≤ b.toNat) ∧
      (a.toNat = 0xF4 → b.toNat < 0x90) := by
  simp [isSecond, isContinuation, UInt8.le_iff_toNat_le, UInt8.lt_iff_toNat_lt, ← UInt8.toNat_inj]
  omega

/-- A byte that starts a sequence of several. -/
theorem not_ascii_of_lead {a : UInt8} (h : 0xC2 ≤ a.toNat) (h' : a.toNat < 0xF5) :
    ¬ a < 0x80 ∧ ¬ (a < 0xC2 || 0xF5 ≤ a) = true := by
  simp [UInt8.le_iff_toNat_le, UInt8.lt_iff_toNat_lt]
  omega

theorem toNat_toUInt8 {n : Nat} (h : n < 256) : n.toUInt8.toNat = n := UInt8.toNat_ofNat_of_lt' h

theorem readFrom_encodeChar (char : Char) (read : List Char) (offset : Nat) (later : List UInt8) :
    readFrom read offset (encodeChar char ++ later) =
      readFrom (char :: read) (offset + (encodeChar char).length) later := by
  have hvalid : char.toNat < 0xD800 ∨ 0xDFFF < char.toNat ∧ char.toNat < 0x110000 := char.valid
  have hchar : Char.ofNat char.toNat = char := Char.ofNat_toNat char
  unfold encodeChar
  generalize char.toNat = n at hvalid hchar
  -- the bytes are small enough to be bytes, and their low bits put together are the number again
  have hlast : (0x80 + n % 64).toUInt8.toNat = 0x80 + n % 64 := toNat_toUInt8 (by omega)
  have hlater : (0x80 + n / 64 % 64).toUInt8.toNat = 0x80 + n / 64 % 64 := toNat_toUInt8 (by omega)
  dsimp only
  split
  · next hone =>
    have ha : n.toUInt8.toNat = n := toNat_toUInt8 (by omega)
    have hascii : n.toUInt8 < 0x80 := UInt8.lt_iff_toNat_lt.2 (by rwa [ha])
    show readFrom read offset (_ :: later) = _
    rw [readFrom_one _ _ _ hascii, ha, hchar]
    rfl
  split
  · next hone htwo =>
    have ha : (0xC0 + n / 64).toUInt8.toNat = 0xC0 + n / 64 := toNat_toUInt8 (by omega)
    obtain ⟨hascii, hstart⟩ := @not_ascii_of_lead (0xC0 + n / 64).toUInt8 (by omega) (by omega)
    have hend : (0xC0 + n / 64).toUInt8.toNat < 0xE0 := by omega
    have hpoint : (0xC0 + n / 64).toUInt8.toNat % 32 * 64 + payload (0x80 + n % 64).toUInt8 = n := by
      rw [payload, ha, hlast]
      omega
    show readFrom read offset (_ :: _ :: later) = _
    rw [readFrom_two _ _ _ hascii hstart (isSecond_iff.2 (by omega)) (UInt8.lt_iff_toNat_lt.2 hend),
      hpoint, hchar]
    rfl
  split
  · next hone htwo hthree =>
    have ha : (0xE0 + n / 4096).toUInt8.toNat = 0xE0 + n / 4096 := toNat_toUInt8 (by omega)
    obtain ⟨hascii, hstart⟩ := @not_ascii_of_lead (0xE0 + n / 4096).toUInt8 (by omega) (by omega)
    have hbound : ¬ (0xE0 + n / 4096).toUInt8.toNat < 0xE0 := by omega
    have hend : (0xE0 + n / 4096).toUInt8.toNat < 0xF0 := by omega
    have hpoint : ((0xE0 + n / 4096).toUInt8.toNat % 16 * 64 +
        payload (0x80 + n / 64 % 64).toUInt8) * 64 + payload (0x80 + n % 64).toUInt8 = n := by
      rw [payload, payload, ha, hlater, hlast]
      omega
    show readFrom read offset (_ :: _ :: _ :: later) = _
    rw [readFrom_three _ _ _ hascii hstart (isSecond_iff.2 (by omega)) (mt UInt8.lt_iff_toNat_lt.1 hbound)
      (isContinuation_iff.2 (by omega)) (UInt8.lt_iff_toNat_lt.2 hend), hpoint, hchar]
    rfl
  · next hone htwo hthree =>
    have ha : (0xF0 + n / 262144).toUInt8.toNat = 0xF0 + n / 262144 := toNat_toUInt8 (by omega)
    have hb : (0x80 + n / 4096 % 64).toUInt8.toNat = 0x80 + n / 4096 % 64 := toNat_toUInt8 (by omega)
    obtain ⟨hascii, hstart⟩ := @not_ascii_of_lead (0xF0 + n / 262144).toUInt8 (by omega) (by omega)
    have hbound : ¬ (0xF0 + n / 262144).toUInt8.toNat < 0xE0 := by omega
    have hend : ¬ (0xF0 + n / 262144).toUInt8.toNat < 0xF0 := by omega
    have hpoint : (((0xF0 + n / 262144).toUInt8.toNat % 8 * 64 +
        payload (0x80 + n / 4096 % 64).toUInt8) * 64 + payload (0x80 + n / 64 % 64).toUInt8) * 64 +
          payload (0x80 + n % 64).toUInt8 = n := by
      rw [payload, payload, payload, ha, hb, hlater, hlast]
      omega
    show readFrom read offset (_ :: _ :: _ :: _ :: later) = _
    rw [readFrom_four _ _ _ hascii hstart (isSecond_iff.2 (by omega)) (mt UInt8.lt_iff_toNat_lt.1 hbound)
      (isContinuation_iff.2 (by omega)) (mt UInt8.lt_iff_toNat_lt.1 hend) (isContinuation_iff.2 (by omega)),
      hpoint, hchar]
    rfl

theorem readFrom_encode (text read : List Char) (offset : Nat) :
    readFrom read offset (encode text) = .ok (read.reverse ++ text) := by
  induction text generalizing read offset with
  | nil => rw [encode, List.flatMap_nil, readFrom_nil, List.append_nil]
  | cons char rest ih =>
    rw [encode, List.flatMap_cons, readFrom_encodeChar]
    refine (ih _ _).trans ?_
    rw [List.reverse_cons, List.append_assoc]
    rfl

/-- **What has been written can be read.** -/
theorem decode_encode (text : List Char) : decode (encode text) = .ok text :=
  readFrom_encode text [] 0

end Stencil.Text.Utf8

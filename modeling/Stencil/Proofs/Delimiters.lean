import Stencil.Proofs.Text.Words
import Stencil.Delimiters

/-!
# How a pair of delimiters is written

`Spells` says which texts ask for a pair: the two delimiters, with blanks between them and, if one
likes, around them, and without a blank or an equal sign in either. Reading a text gives a pair if and
only if the text spells it (`read_eq_ok_iff`), so a text spells one pair at most, and a text that
spells none is refused.
-/

set_option autoImplicit false

namespace Stencil.Delimiters

open Text

/-- The text asks for these delimiters. -/
def Spells (text : List Char) (pair : Delimiters) : Prop :=
  ∃ before between after, text = before ++ pair.opening ++ between ++ pair.closing ++ after ∧
    Blank before ∧ Blank between ∧ between ≠ [] ∧ Blank after ∧
    (Ink pair.opening ∧ '=' ∉ pair.opening) ∧ (Ink pair.closing ∧ '=' ∉ pair.closing)

theorem ofWords?_eq_some_iff {words : List (List Char)} {pair : Delimiters} :
    ofWords? words = some pair ↔
      words = [pair.opening, pair.closing] ∧ '=' ∉ pair.opening ∧ '=' ∉ pair.closing := by
  constructor
  · intro h
    unfold ofWords? at h
    split at h
    · next a as b bs =>
      split at h
      · cases h
      · next hn =>
        cases h
        rw [Bool.or_eq_true, List.contains_iff_mem, List.contains_iff_mem, not_or] at hn
        exact ⟨rfl, hn⟩
    · cases h
  · rintro ⟨rfl, ho, hc⟩
    obtain ⟨opening, closing, hone, hcne⟩ := pair
    cases opening with
    | nil => exact absurd rfl hone
    | cons a as =>
      cases closing with
      | nil => exact absurd rfl hcne
      | cons b bs => simp_all [ofWords?]

theorem words_of_spells {text : List Char} {pair : Delimiters} (h : Spells text pair) :
    words text = [pair.opening, pair.closing] := by
  obtain ⟨before, between, after, rfl, hb, hm, hne, ha, ⟨ho, _⟩, ⟨hc, _⟩⟩ := h
  cases between with
  | nil => exact absurd rfl hne
  | cons c rest =>
    have hblank : isBlank c = true := hm c List.mem_cons_self
    have hafter : Breaks after := fun d hd => ha d (List.mem_of_mem_head? hd)
    rw [List.append_assoc, List.append_assoc, List.append_assoc, words_append_of_blank hb,
      List.cons_append, words_append_cons hblank, words_of_ink pair.opening_ne_nil ho,
      words_append_of_blank fun d hd => hm d (List.mem_cons_of_mem c hd),
      words_append_of_breaks pair.closing_ne_nil hc hafter, words_of_blank ha]
    rfl

theorem spells_of_words {text : List Char} {pair : Delimiters}
    (h : words text = [pair.opening, pair.closing]) (ho : '=' ∉ pair.opening)
    (hc : '=' ∉ pair.closing) : Spells text pair := by
  obtain ⟨before, rest, rfl, hb, hopening, hbreaks, hrest⟩ := exists_rest_of_words h
  obtain ⟨between, after, rfl, hm, hclosing, _, hafter⟩ := exists_rest_of_words hrest
  refine ⟨before, between, after, by simp only [List.append_assoc], hb, hm, ?_,
    blank_of_words hafter, ⟨hopening, ho⟩, ⟨hclosing, hc⟩⟩
  -- without blanks between them the closing delimiter would go on from the opening one
  rintro rfl
  cases hcl : pair.closing with
  | nil => exact pair.closing_ne_nil hcl
  | cons c closing =>
    have hblank : isBlank c = true := hbreaks c (by simp [hcl])
    have hink : isBlank c = false := hclosing c (by simp [hcl])
    rw [hblank] at hink
    cases hink

/-- **A pair is read from the texts that spell it**, and from no others. -/
theorem read_eq_ok_iff {text : String} {position : Int} {pair : Delimiters} :
    read text position = .ok pair ↔ Spells text.toList pair := by
  have hread : read text position = .ok pair ↔ ofWords? (words text.toList) = some pair := by
    simp only [read]
    cases ofWords? (words text.toList) <;> simp
  rw [hread, ofWords?_eq_some_iff]
  constructor
  · rintro ⟨hw, ho, hc⟩
    exact spells_of_words hw ho hc
  · intro h
    refine ⟨words_of_spells h, ?_⟩
    obtain ⟨_, _, _, _, _, _, _, _, ⟨_, ho⟩, ⟨_, hc⟩⟩ := h
    exact ⟨ho, hc⟩

theorem read_eq_error_iff {text : String} {position : Int} {error : SyntaxError} :
    read text position = .error error ↔
      error = .invalidDelimiters text position ∧ ∀ pair, ¬ Spells text.toList pair := by
  constructor
  · intro h
    refine ⟨?_, fun pair hs => ?_⟩
    · unfold read at h
      split at h
      · cases h
      · cases h
        rfl
    · rw [read_eq_ok_iff.2 hs] at h
      cases h
  · rintro ⟨rfl, hn⟩
    cases hr : read text position with
    | ok pair => exact absurd (read_eq_ok_iff.1 hr) (hn pair)
    | error error =>
      unfold read at hr
      split at hr
      · cases hr
      · cases hr
        rfl

end Stencil.Delimiters

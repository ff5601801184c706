import Stencil.Text.Search

/-!
# What a cut finds

A pattern occurs first in a text between what is before and what is after it, if the three make up the
text and the pattern is found at no earlier place (`FirstAt`). That is all there is to `cut`: it gives
the two parts if and only if they are these (`cut_eq_some_iff`), and nothing if and only if the pattern
is not found anywhere (`cut_eq_none_iff`).
-/

set_option autoImplicit false

namespace Stencil.Text

/-- The first occurrence of a pattern in a text is the one between these two parts. -/
structure FirstAt (pattern text before after : List Char) : Prop where
  eq : text = before ++ pattern ++ after
  first : ∀ n < before.length, ¬ pattern <+: text.drop n

section Cut

variable {pattern text before after : List Char}

/-- What is cut off before the first occurrence is not longer than before any other. -/
theorem FirstAt.length_le {before' after' : List Char} (h : FirstAt pattern text before after)
    (ho : text = before' ++ pattern ++ after') : before.length ≤ before'.length := by
  by_cases hlt : before'.length < before.length
  · refine absurd ?_ (h.first before'.length hlt)
    rw [ho, List.append_assoc, List.drop_left]
    exact List.prefix_append pattern after'
  · omega

theorem FirstAt.unique {before' after' : List Char} (h : FirstAt pattern text before after)
    (h' : FirstAt pattern text before' after') : before = before' ∧ after = after' := by
  have hle := h.length_le h'.eq
  have hge := h'.length_le h.eq
  have heq : before ++ (pattern ++ after) = before' ++ (pattern ++ after') := by
    rw [← List.append_assoc, ← List.append_assoc, ← h.eq, ← h'.eq]
  obtain ⟨hb, hrest⟩ := List.append_inj heq (Nat.le_antisymm hle hge)
  exact ⟨hb, List.append_cancel_left hrest⟩

/-- An occurrence that is first in a text which ends with it is first whatever else follows. -/
theorem FirstAt.append (h : FirstAt pattern (before ++ pattern) before []) (after : List Char) :
    FirstAt pattern (before ++ pattern ++ after) before after where
  eq := rfl
  first n hn ho := by
    have hle : n ≤ (before ++ pattern).length := by
      rw [List.length_append]
      omega
    rw [List.drop_append_of_le_length hle] at ho
    have hlength : pattern.length ≤ ((before ++ pattern).drop n).length := by
      rw [List.length_drop, List.length_append]
      omega
    exact h.first n hn (List.prefix_of_prefix_length_le ho (List.prefix_append _ _) hlength)

/-- The other way round, what follows the first occurrence can be left out. -/
theorem FirstAt.of_append (h : FirstAt pattern (before ++ pattern ++ after) before after) :
    FirstAt pattern (before ++ pattern) before [] where
  eq := (List.append_nil _).symm
  first n hn ho := by
    have hle : n ≤ (before ++ pattern).length := by
      rw [List.length_append]
      omega
    have hmore : (before ++ pattern).drop n <+: (before ++ pattern ++ after).drop n := by
      rw [List.drop_append_of_le_length hle]
      exact List.prefix_append _ after
    exact h.first n hn (ho.trans hmore)

/-- What is found first is found first whatever else follows. -/
theorem FirstAt.followed (h : FirstAt pattern text before after) (more : List Char) :
    FirstAt pattern (text ++ more) before (after ++ more) := by
  have heq := h.eq
  subst heq
  have hlonger := h.of_append.append (after ++ more)
  rwa [← List.append_assoc] at hlonger

/-- The pattern is not found in what is before its first occurrence. -/
theorem FirstAt.not_isInfix (hp : pattern ≠ []) (h : FirstAt pattern text before after) :
    ¬ pattern <:+: before := by
  rintro ⟨earlier, later, rfl⟩
  have ho : text = earlier ++ pattern ++ (later ++ pattern ++ after) := by
    rw [h.eq]
    simp only [List.append_assoc]
  have hle := h.length_le ho
  have hpos : 0 < pattern.length := List.length_pos_iff.2 hp
  simp only [List.length_append] at hle
  omega

/-- After a text without the pattern and a character that is not part of it, the pattern is found where
it stands. -/
theorem firstAt_of_not_isInfix {c : Char} (hc : c ∉ pattern) (hn : ¬ pattern <:+: text) :
    FirstAt pattern (text ++ [c] ++ pattern) (text ++ [c]) [] where
  eq := (List.append_nil _).symm
  first n hlt ho := by
    have hle : n ≤ text.length := by
      rw [List.length_append, List.length_singleton] at hlt
      omega
    rw [List.append_assoc, List.drop_append_of_le_length hle] at ho
    rcases Nat.lt_or_ge (text.drop n).length pattern.length with hlong | hshort
    -- too long for what is left of the text, the pattern would reach over the character
    · refine hc ?_
      have hreach : text.drop n ++ [c] <+: pattern := by
        refine List.prefix_of_prefix_length_le ?_ ho ?_
        · rw [List.prefix_append_right_inj]
          exact List.prefix_append [c] pattern
        · rw [List.length_append, List.length_singleton]
          exact hlong
      exact hreach.subset (List.mem_append_right _ List.mem_cons_self)
    · have hwithin : pattern <+: text.drop n :=
        List.prefix_of_prefix_length_le ho (List.prefix_append _ _) hshort
      exact hn (hwithin.isInfix.trans (List.drop_suffix n text).isInfix)

theorem firstAt_of_cut (h : cut pattern text = some (before, after)) :
    FirstAt pattern text before after where
  eq := cut_eq_some h
  first _ hn := not_isPrefix_of_cut h hn

theorem not_isInfix_of_cut (h : cut pattern text = none) : ¬ pattern <:+: text := by
  induction text with
  | nil =>
    intro ho
    rw [List.infix_nil] at ho
    subst ho
    simp [cut] at h
  | cons c rest ih =>
    simp only [cut] at h
    split at h
    · simp at h
    · next hp =>
      have hrest : cut pattern rest = none := by
        cases hr : cut pattern rest with
        | none => rfl
        | some found => simp [hr] at h
      intro ho
      rcases List.infix_cons_iff.1 ho with ho | ho
      · exact hp (List.isPrefixOf_iff_prefix.2 ho)
      · exact ih hrest ho

/-- **A cut is the first occurrence.** -/
theorem cut_eq_some_iff :
    cut pattern text = some (before, after) ↔ FirstAt pattern text before after := by
  refine ⟨firstAt_of_cut, fun h => ?_⟩
  cases hc : cut pattern text with
  | none =>
    have ho : pattern <:+: text := ⟨before, after, h.eq.symm⟩
    exact absurd ho (not_isInfix_of_cut hc)
  | some found =>
    obtain ⟨hb, ha⟩ := h.unique (firstAt_of_cut hc)
    rw [hb, ha]

theorem cut_eq_none_iff : cut pattern text = none ↔ ¬ pattern <:+: text := by
  refine ⟨not_isInfix_of_cut, fun h => ?_⟩
  cases hc : cut pattern text with
  | none => rfl
  | some found =>
    have ho : pattern <:+: text := ⟨found.1, found.2, (firstAt_of_cut hc).eq.symm⟩
    exact absurd ho h

end Cut

end Stencil.Text

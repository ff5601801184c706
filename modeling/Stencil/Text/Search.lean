/-!
# The first occurrence of a pattern

`cut pattern text` gives the text before the first occurrence of the pattern and the text after
it. What it gives is a decomposition of the text (`cut_eq_some`), and no earlier one exists
(`not_isPrefix_of_cut`), so the two parts together say where the pattern was found.
-/

set_option autoImplicit false

namespace Stencil.Text

/-- Before and after the first occurrence of the pattern. -/
def cut (pattern : List Char) : List Char → Option (List Char × List Char)
  | [] => if pattern.isEmpty then some ([], []) else none
  | c :: rest =>
    if pattern.isPrefixOf (c :: rest) then
      some ([], (c :: rest).drop pattern.length)
    else
      match cut pattern rest with
      | some (before, after) => some (c :: before, after)
      | none => none

theorem eq_append_drop_of_isPrefixOf {pattern text : List Char}
    (hp : pattern.isPrefixOf text = true) : text = pattern ++ text.drop pattern.length := by
  obtain ⟨rest, rfl⟩ := List.isPrefixOf_iff_prefix.1 hp
  simp

/-- The parts of a cut and the pattern between them make up the text. -/
theorem cut_eq_some {pattern text before after : List Char}
    (h : cut pattern text = some (before, after)) : text = before ++ pattern ++ after := by
  induction text generalizing before after with
  | nil =>
    by_cases hp : pattern.isEmpty <;> simp_all [cut]
  | cons c rest ih =>
    simp only [cut] at h
    split at h
    · next hp =>
      obtain ⟨rfl, rfl⟩ := Prod.mk.inj (Option.some.inj h)
      simpa using eq_append_drop_of_isPrefixOf hp
    · split at h
      · next b a hr =>
        obtain ⟨rfl, rfl⟩ := Prod.mk.inj (Option.some.inj h)
        simpa using ih hr
      · simp at h

/-- The pattern does not occur earlier than where the text was cut. -/
theorem not_isPrefix_of_cut {pattern text before after : List Char}
    (h : cut pattern text = some (before, after)) {n : Nat} (hn : n < before.length) :
    ¬ pattern <+: text.drop n := by
  induction text generalizing before after n with
  | nil =>
    by_cases hp : pattern.isEmpty = true
    · simp only [cut, hp, if_true, Option.some.injEq, Prod.mk.injEq] at h
      simp [← h.1] at hn
    · simp [cut, hp] at h
  | cons c rest ih =>
    simp only [cut] at h
    split at h
    · obtain ⟨rfl, rfl⟩ := Prod.mk.inj (Option.some.inj h)
      simp at hn
    · next hp =>
      split at h
      · next b a hr =>
        obtain ⟨rfl, rfl⟩ := Prod.mk.inj (Option.some.inj h)
        cases n with
        | zero => simpa [List.isPrefixOf_iff_prefix] using hp
        | succ n => exact ih hr (by simpa using hn)
      · simp at h

/-- A pattern that is not empty leaves less than the whole text after it. -/
theorem length_lt_of_cut {pattern text before after : List Char} (hp : pattern ≠ [])
    (h : cut pattern text = some (before, after)) : after.length < text.length := by
  have := List.length_pos_iff.2 hp
  rw [cut_eq_some h]
  simp only [List.length_append]
  omega

end Stencil.Text

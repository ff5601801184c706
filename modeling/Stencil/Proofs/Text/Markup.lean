import Stencil.Text.Markup

/-!
# Text that is harmless in markup

An escaped text holds none of the characters that could end a text or an attribute, and every ampersand
in it begins an entity. So it stands for itself in any markup that it is put into, and reading its
entities once, from left to right, gives back the text that was escaped (`harmless_escapeMarkup`).

Escaping is done here character by character. Five replacements one after the other come to the same,
if that of the ampersand is made first (`escapeMarkup_eq_replaced`).
-/

set_option autoImplicit false

namespace Stencil.Text

/-- The characters that have a meaning in markup. -/
def marks : List Char := ['&', '<', '>', '"', '\'']

/-- The character whose entity a text begins with. -/
def markAt? (text : List Char) : Option Char := marks.find? fun mark => (entity mark).isPrefixOf text

/-- The text with its entities read as the characters that they stand for, in one pass from left to
right; so many characters are passed over first. -/
def readEntities : Nat → List Char → List Char
  | _, [] => []
  | skip + 1, _ :: rest => readEntities skip rest
  | 0, c :: rest =>
    match markAt? (c :: rest) with
    | some mark => mark :: readEntities ((entity mark).length - 1) rest
    | none => c :: readEntities 0 rest

def unescapeMarkup (text : String) : String := String.ofList (readEntities 0 text.toList)

/-- The chunk has no effect on the markup around it, and stands there for the text. -/
structure Harmless (chunk text : String) : Prop where
  unmarked : ∀ c ∈ chunk.toList, c ≠ '<' ∧ c ≠ '>' ∧ c ≠ '"' ∧ c ≠ '\''
  ampersand : ∀ before after, chunk.toList = before ++ '&' :: after →
    ∃ mark ∈ marks, entity mark <+: '&' :: after
  unescape : unescapeMarkup chunk = text

/-! ## Entities -/

theorem entity_of_not_mem {c : Char} (h : c ∉ marks) : entity c = [c] := by
  simp only [marks, List.mem_cons, List.not_mem_nil, or_false, not_or] at h
  obtain ⟨ha, hl, hg, hq, hs⟩ := h
  unfold entity
  split <;> first | contradiction | rfl

/-- An entity has its ampersand at the front and nowhere else. -/
theorem exists_entity_eq_cons {mark : Char} (h : mark ∈ marks) :
    ∃ tail, entity mark = '&' :: tail ∧ '&' ∉ tail := by
  simp only [marks, List.mem_cons, List.not_mem_nil, or_false] at h
  rcases h with rfl | rfl | rfl | rfl | rfl
  · exact ⟨"amp;".toList, rfl, by decide⟩
  · exact ⟨"lt;".toList, rfl, by decide⟩
  · exact ⟨"gt;".toList, rfl, by decide⟩
  · exact ⟨"quot;".toList, rfl, by decide⟩
  · exact ⟨"#x27;".toList, rfl, by decide⟩

theorem unmarked_of_mem_entity {c d : Char} (h : d ∈ entity c) :
    d ≠ '<' ∧ d ≠ '>' ∧ d ≠ '"' ∧ d ≠ '\'' := by
  by_cases hc : c ∈ marks
  · have hall : (marks.all fun mark => (entity mark).all fun d =>
        decide (d ≠ '<' ∧ d ≠ '>' ∧ d ≠ '"' ∧ d ≠ '\'')) = true := by
      decide
    have hmark := List.all_eq_true.1 hall c hc
    exact of_decide_eq_true (List.all_eq_true.1 hmark d h)
  · rw [entity_of_not_mem hc] at h
    obtain rfl := List.mem_singleton.1 h
    simp only [marks, List.mem_cons, List.not_mem_nil, or_false, not_or] at hc
    exact hc.2

/-! ## Reading entities -/

theorem markAt?_entity {mark : Char} (h : mark ∈ marks) (rest : List Char) :
    markAt? (entity mark ++ rest) = some mark := by
  simp only [marks, List.mem_cons, List.not_mem_nil, or_false] at h
  rcases h with rfl | rfl | rfl | rfl | rfl <;> rfl

theorem markAt?_of_ne {c : Char} (h : c ≠ '&') (rest : List Char) : markAt? (c :: rest) = none := by
  unfold markAt?
  rw [List.find?_eq_none]
  intro mark hm hprefix
  obtain ⟨tail, he, _⟩ := exists_entity_eq_cons hm
  rw [he, List.isPrefixOf_iff_prefix, List.cons_prefix_cons] at hprefix
  exact h hprefix.1.symm

theorem readEntities_append (passed rest : List Char) :
    readEntities passed.length (passed ++ rest) = readEntities 0 rest := by
  induction passed with
  | nil => rfl
  | cons c passed ih =>
    simp only [List.length_cons, List.cons_append, readEntities]
    exact ih

/-- What a character is written as is read as the character. -/
theorem readEntities_entity (c : Char) (rest : List Char) :
    readEntities 0 (entity c ++ rest) = c :: readEntities 0 rest := by
  by_cases hc : c ∈ marks
  · obtain ⟨tail, he, _⟩ := exists_entity_eq_cons hc
    have hmark := markAt?_entity hc rest
    rw [he, List.cons_append] at hmark ⊢
    rw [readEntities, hmark]
    simp only [he, List.length_cons, Nat.add_sub_cancel]
    rw [readEntities_append]
  · have hne : c ≠ '&' := by
      rintro rfl
      exact hc (by decide)
    rw [entity_of_not_mem hc, List.singleton_append, readEntities, markAt?_of_ne hne]

theorem readEntities_flatMap (text : List Char) : readEntities 0 (text.flatMap entity) = text := by
  induction text with
  | nil => rfl
  | cons c rest ih => rw [List.flatMap_cons, readEntities_entity, ih]

/-! ## Escaped text -/

theorem entity_eq_append {c : Char} {before after : List Char}
    (h : entity c = before ++ '&' :: after) : before = [] ∧ c ∈ marks := by
  by_cases hc : c ∈ marks
  · obtain ⟨tail, ht, hn⟩ := exists_entity_eq_cons hc
    cases before with
    | nil => exact ⟨rfl, hc⟩
    | cons other before =>
      rw [ht, List.cons_append] at h
      cases h
      exact absurd (List.mem_append_right _ List.mem_cons_self) hn
  · rw [entity_of_not_mem hc] at h
    have hm : '&' ∈ [c] := h ▸ List.mem_append_right _ List.mem_cons_self
    obtain rfl := List.mem_singleton.1 hm
    exact absurd (by decide) hc

/-- An ampersand in an escaped text is where an entity begins. -/
theorem exists_entity_prefix {text before after : List Char}
    (h : text.flatMap entity = before ++ '&' :: after) :
    ∃ mark ∈ marks, entity mark <+: '&' :: after := by
  induction text generalizing before with
  | nil => simp at h
  | cons c rest ih =>
    rw [List.flatMap_cons] at h
    rcases List.append_eq_append_iff.1 h with ⟨between, _, hrest⟩ | ⟨between, he, hafter⟩
    · exact ih hrest
    · cases between with
      | nil =>
        rw [List.nil_append] at hafter
        exact ih (hafter.symm.trans (List.nil_append _).symm)
      | cons first between =>
        cases hafter
        obtain ⟨rfl, hc⟩ := entity_eq_append he
        rw [List.nil_append] at he
        refine ⟨c, hc, ?_⟩
        rw [he]
        exact List.prefix_append _ _

theorem harmless_escapeMarkup (text : String) : Harmless (escapeMarkup text) text where
  unmarked c hc := by
    rw [toList_escapeMarkup] at hc
    obtain ⟨d, _, hd⟩ := List.mem_flatMap.1 hc
    exact unmarked_of_mem_entity hd
  ampersand before after h := by
    rw [toList_escapeMarkup] at h
    exact exists_entity_prefix h
  unescape := by
    rw [unescapeMarkup, toList_escapeMarkup, readEntities_flatMap, String.ofList_toList]

/-! ## Replacements one after the other -/

/-- The text with every occurrence of one character replaced by its entity. -/
def replaced (mark : Char) (text : List Char) : List Char :=
  text.flatMap fun c => if c = mark then entity mark else [c]

theorem replaced_append (mark : Char) (text rest : List Char) :
    replaced mark (text ++ rest) = replaced mark text ++ replaced mark rest :=
  List.flatMap_append

theorem replaced_singleton {mark c : Char} (h : c ≠ mark) : replaced mark [c] = [c] := by
  simp [replaced, h]

/-- The ampersands of the entities would be replaced as well if that of the text were not replaced
first. -/
theorem escapeMarkup_eq_replaced (text : String) :
    (escapeMarkup text).toList =
      replaced '\'' (replaced '"' (replaced '>' (replaced '<' (replaced '&' text.toList)))) := by
  rw [toList_escapeMarkup]
  induction text.toList with
  | nil => rfl
  | cons c rest ih =>
    rw [List.flatMap_cons, ih, ← List.singleton_append (x := c)]
    simp only [replaced_append]
    congr 1
    -- each replacement goes over the whole text, so it may be looked at one character at a time
    by_cases hc : c ∈ marks
    · simp only [marks, List.mem_cons, List.not_mem_nil, or_false] at hc
      rcases hc with rfl | rfl | rfl | rfl | rfl <;> decide
    · rw [entity_of_not_mem hc]
      simp only [marks, List.mem_cons, List.not_mem_nil, or_false, not_or] at hc
      obtain ⟨ha, hl, hg, hq, hs⟩ := hc
      rw [replaced_singleton ha, replaced_singleton hl, replaced_singleton hg,
        replaced_singleton hq, replaced_singleton hs]

end Stencil.Text

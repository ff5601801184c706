import Stencil.Text.Blank

/-!
# Words between blanks

A text falls into words wherever there is a blank, and that one equation (`words_append_cons`) is what
the others follow from. Blanks at either end of a text make no difference to its words; a text without
blanks is one word. The other way round, a text whose first word is known starts with some blanks and
that word, and then ends or goes on with a blank (`exists_rest_of_words`).
-/

set_option autoImplicit false

namespace Stencil.Text

/-- Nothing but blanks. -/
def Blank (text : List Char) : Prop := ∀ c ∈ text, isBlank c = true

/-- No blanks at all. -/
def Ink (text : List Char) : Prop := ∀ c ∈ text, isBlank c = false

theorem split_append_cons {isSeparator : Char → Bool} {c : Char} (hc : isSeparator c = true)
    (text rest : List Char) :
    split isSeparator (text ++ c :: rest) =
      ((split isSeparator text).1,
        (split isSeparator text).2 ++
          (split isSeparator rest).1 :: (split isSeparator rest).2) := by
  induction text with
  | nil => simp [split, hc]
  | cons d text ih =>
    by_cases hd : isSeparator d = true
    · simp [split, hd, ih]
    · simp [split, hd, ih]

theorem split_of_forall {isSeparator : Char → Bool} {text : List Char}
    (h : ∀ c ∈ text, isSeparator c = false) : split isSeparator text = (text, []) := by
  induction text with
  | nil => rfl
  | cons c rest ih =>
    have hc : isSeparator c = false := h c List.mem_cons_self
    simp [split, hc, ih fun d hd => h d (List.mem_cons_of_mem c hd)]

theorem split_of_not_mem {separator : Char} {text : List Char} (h : separator ∉ text) :
    split (· == separator) text = (text, []) := by
  refine split_of_forall fun c hc => ?_
  have hne : c ≠ separator := fun heq => h (heq ▸ hc)
  simpa using hne

/-- Parts with separators between them come apart again. -/
theorem split_intercalate {separator : Char} {first : List Char} {rest : List (List Char)}
    (hf : separator ∉ first) (hr : ∀ part ∈ rest, separator ∉ part) :
    split (· == separator) ([separator].intercalate (first :: rest)) = (first, rest) := by
  induction rest generalizing first with
  | nil => rw [List.intercalate_singleton, split_of_not_mem hf]
  | cons second rest ih =>
    obtain ⟨hsecond, hrest⟩ := List.forall_mem_cons.1 hr
    rw [List.intercalate_cons_cons, List.append_assoc, List.singleton_append,
      split_append_cons (by simp), split_of_not_mem hf, ih hsecond hrest]
    rfl

/-- **A blank falls between words.** -/
theorem words_append_cons {c : Char} (hc : isBlank c = true) (text rest : List Char) :
    words (text ++ c :: rest) = words text ++ words rest := by
  simp only [words, split_append_cons hc, ← List.cons_append, List.filter_append]

theorem words_nil : words [] = [] := rfl

theorem words_cons_of_blank {c : Char} (hc : isBlank c = true) (text : List Char) :
    words (c :: text) = words text := by
  have h := words_append_cons hc [] text
  rwa [words_nil, List.nil_append, List.nil_append] at h

theorem words_append_of_blank {blanks : List Char} (hb : Blank blanks) (text : List Char) :
    words (blanks ++ text) = words text := by
  induction blanks with
  | nil => rfl
  | cons c rest ih =>
    rw [List.cons_append, words_cons_of_blank (hb c List.mem_cons_self)]
    exact ih fun d hd => hb d (List.mem_cons_of_mem c hd)

theorem words_of_blank {blanks : List Char} (hb : Blank blanks) : words blanks = [] := by
  rw [← List.append_nil blanks, words_append_of_blank hb, words_nil]

theorem words_of_ink {word : List Char} (hne : word ≠ []) (hw : Ink word) : words word = [word] := by
  simp [words, split_of_forall hw, hne]

/-- A text is over or goes on with a blank. -/
def Breaks (text : List Char) : Prop := ∀ c, text.head? = some c → isBlank c = true

theorem words_append_of_breaks {word rest : List Char} (hne : word ≠ []) (hw : Ink word)
    (hr : Breaks rest) : words (word ++ rest) = word :: words rest := by
  cases rest with
  | nil => rw [List.append_nil, words_of_ink hne hw, words_nil]
  | cons c rest =>
    have hc : isBlank c = true := hr c rfl
    rw [words_append_cons hc, words_of_ink hne hw, words_cons_of_blank hc]
    rfl

/-- Any text is some blanks, a longest run without blanks, and the rest. -/
theorem exists_run (text : List Char) :
    ∃ blanks word rest, text = blanks ++ word ++ rest ∧ Blank blanks ∧ Ink word ∧ Breaks rest ∧
      (word = [] → rest = []) := by
  refine ⟨text.takeWhile isBlank, (text.dropWhile isBlank).takeWhile (!isBlank ·),
    (text.dropWhile isBlank).dropWhile (!isBlank ·), ?_, ?_, ?_, ?_, ?_⟩
  · rw [List.append_assoc, List.takeWhile_append_dropWhile, List.takeWhile_append_dropWhile]
  · exact List.all_eq_true.1 List.all_takeWhile
  · intro c hc
    have hall := List.all_eq_true.1 List.all_takeWhile c hc
    simpa using hall
  · intro c hc
    have := List.head?_dropWhile_not (!isBlank ·) (text.dropWhile isBlank)
    rw [hc] at this
    simpa using this
  · intro hw
    cases hd : text.dropWhile isBlank with
    | nil => rfl
    | cons c rest =>
      have hc := List.head?_dropWhile_not isBlank text
      rw [hd] at hc hw
      have hc : isBlank c = false := by simpa using hc
      simp [hc] at hw

theorem exists_rest_of_words {text word : List Char} {others : List (List Char)}
    (h : words text = word :: others) :
    ∃ blanks rest, text = blanks ++ word ++ rest ∧ Blank blanks ∧ Ink word ∧ Breaks rest ∧
      words rest = others := by
  obtain ⟨blanks, run, rest, rfl, hb, hr, hrest, hempty⟩ := exists_run text
  rw [List.append_assoc, words_append_of_blank hb] at h
  by_cases hne : run = []
  -- without a run there is nothing but blanks, and no first word
  · rw [hempty hne, hne] at h
    cases h
  · rw [words_append_of_breaks hne hr hrest] at h
    obtain ⟨rfl, rfl⟩ := List.cons.inj h
    exact ⟨blanks, rest, rfl, hb, hr, hrest, rfl⟩

theorem blank_of_words {text : List Char} (h : words text = []) : Blank text := by
  obtain ⟨blanks, run, rest, rfl, hb, hr, hrest, hempty⟩ := exists_run text
  rw [List.append_assoc, words_append_of_blank hb] at h
  by_cases hne : run = []
  · rw [hempty hne, hne]
    simpa using hb
  · rw [words_append_of_breaks hne hr hrest] at h
    cases h

end Stencil.Text

import Stencil.Proofs.Text.Words

/-!
# Blanks around a text

Blanks at either end of a text make no difference to what is left of it when it is trimmed. A text
whose first character is no blank keeps that character, and it is only trimmed behind it. A text is what
is left of it with some blanks around it (`exists_trim`), so its words are the same.
-/

set_option autoImplicit false

namespace Stencil.Text

variable {blanks text : List Char}

theorem trim_blanks_append (hb : Blank blanks) (text : List Char) :
    trim (blanks ++ text) = trim text := by
  rw [trim, trim, List.dropWhile_append_of_pos hb]

theorem trimEnd_append_blanks (text : List Char) (hb : Blank blanks) :
    trimEnd (text ++ blanks) = trimEnd text := by
  have hreverse : Blank blanks.reverse := fun c hc => hb c (List.mem_reverse.1 hc)
  rw [trimEnd, trimEnd, List.reverse_append, List.dropWhile_append_of_pos hreverse]

theorem dropWhile_blanks (hb : Blank blanks) : blanks.dropWhile isBlank = [] := by
  rw [← List.append_nil blanks, List.dropWhile_append_of_pos hb]
  rfl

theorem trim_append_blanks (text : List Char) (hb : Blank blanks) :
    trim (text ++ blanks) = trim text := by
  rw [trim, trim, List.dropWhile_append]
  split
  -- a text of blanks only has nothing to keep the blanks behind it apart from those before it
  · next h => rw [List.isEmpty_iff.1 h, dropWhile_blanks hb]
  · rw [trimEnd_append_blanks _ hb]

theorem trimEnd_cons {c : Char} (hc : isBlank c = false) (text : List Char) :
    trimEnd (c :: text) = c :: trimEnd text := by
  rw [trimEnd, trimEnd, List.reverse_cons, List.dropWhile_append]
  split
  · next h =>
    rw [List.isEmpty_iff.1 h, List.dropWhile_cons_of_neg (by rw [hc]; exact Bool.false_ne_true)]
    rfl
  · rw [List.reverse_append]
    rfl

theorem trim_cons {c : Char} (hc : isBlank c = false) (text : List Char) :
    trim (c :: text) = c :: trimEnd text := by
  rw [trim, List.dropWhile_cons_of_neg (by rw [hc]; exact Bool.false_ne_true), trimEnd_cons hc]

theorem exists_trimEnd (text : List Char) :
    ∃ blanks, Blank blanks ∧ trimEnd text ++ blanks = text := by
  refine ⟨(text.reverse.takeWhile isBlank).reverse, fun c hc => ?_, ?_⟩
  · exact List.all_eq_true.1 List.all_takeWhile c (List.mem_reverse.1 hc)
  · rw [trimEnd, ← List.reverse_append, List.takeWhile_append_dropWhile, List.reverse_reverse]

/-- Only blanks are trimmed away. -/
theorem exists_trim (text : List Char) :
    ∃ before after, Blank before ∧ Blank after ∧ before ++ trim text ++ after = text := by
  obtain ⟨after, ha, heq⟩ := exists_trimEnd (text.dropWhile isBlank)
  refine ⟨text.takeWhile isBlank, after, fun c hc => List.all_eq_true.1 List.all_takeWhile c hc, ha, ?_⟩
  rw [List.append_assoc, trim, heq, List.takeWhile_append_dropWhile]

theorem trim_trimEnd (text : List Char) : trim (trimEnd text) = trim text := by
  obtain ⟨blanks, hb, heq⟩ := exists_trimEnd text
  calc trim (trimEnd text)
      = trim (trimEnd text ++ blanks) := (trim_append_blanks _ hb).symm
    _ = trim text := by rw [heq]

theorem trim_trim (text : List Char) : trim (trim text) = trim text := by
  obtain ⟨before, after, hb, ha, heq⟩ := exists_trim text
  calc trim (trim text)
      = trim (before ++ trim text ++ after) := by
        rw [trim_append_blanks _ ha, trim_blanks_append hb]
    _ = trim text := by rw [heq]

theorem words_append_blanks (text : List Char) (hb : Blank blanks) :
    words (text ++ blanks) = words text := by
  cases blanks with
  | nil => rw [List.append_nil]
  | cons c rest =>
    rw [words_append_cons (hb c List.mem_cons_self),
      words_of_blank fun d hd => hb d (List.mem_cons_of_mem c hd), List.append_nil]

/-- The words of a text are left as they are. -/
theorem words_trim (text : List Char) : words (trim text) = words text := by
  obtain ⟨before, after, hb, ha, heq⟩ := exists_trim text
  calc words (trim text)
      = words (before ++ trim text ++ after) := by
        rw [words_append_blanks _ ha, words_append_of_blank hb]
    _ = words text := by rw [heq]

theorem trimEnd_isPrefix (text : List Char) : trimEnd text <+: text := by
  rw [← List.reverse_suffix, trimEnd, List.reverse_reverse]
  exact List.dropWhile_suffix isBlank

/-- What is left of a text is a part of it. -/
theorem trim_isInfix (text : List Char) : trim text <:+: text :=
  (trimEnd_isPrefix _).isInfix.trans (List.dropWhile_suffix isBlank).isInfix

end Stencil.Text

import Stencil.Proofs.Template.Lexing
import Stencil.Proofs.Text.Trimming

/-!
# Tags that switch the delimiters

A tag between two equal signs asks for other delimiters and names them by two words. `Spelling` says
which texts name which two words, whatever these are; they need not be known to make a pair beforehand.
A text that spells two delimiters is read as the pair of them, and a text that spells none is refused as
it stands (`read_decides`).

Inside of a template the same text has blanks around it trimmed away and an equal sign at either end. The
reader takes this for a switch, and what it reads after the tag it reads with the new delimiters and no
others (`Cursor.step_of_switch`).
-/

set_option autoImplicit false

namespace Stencil

open Text

namespace Delimiters

/-- Neither empty nor with a blank or an equal sign in it. -/
structure IsDelimiter (word : List Char) : Prop where
  ne_nil : word ≠ []
  ink : Ink word
  plain : '=' ∉ word

/-- The text is these two words with blanks between them and, if one likes, around them, and both can be
delimiters. -/
def Spelling (text opening closing : List Char) : Prop :=
  ∃ before between after, text = before ++ opening ++ between ++ closing ++ after ∧
    Blank before ∧ Blank between ∧ between ≠ [] ∧ Blank after ∧
    IsDelimiter opening ∧ IsDelimiter closing

/-- Two words that can be delimiters make a pair. -/
theorem spelling_iff {text opening closing : List Char} :
    Spelling text opening closing ↔
      ∃ pair, Spells text pair ∧ pair.opening = opening ∧ pair.closing = closing := by
  constructor
  · rintro ⟨before, between, after, heq, hb, hm, hne, ha, ho, hc⟩
    exact ⟨⟨opening, closing, ho.ne_nil, hc.ne_nil⟩,
      ⟨before, between, after, heq, hb, hm, hne, ha, ⟨ho.ink, ho.plain⟩, hc.ink, hc.plain⟩, rfl, rfl⟩
  · rintro ⟨pair, ⟨before, between, after, heq, hb, hm, hne, ha, ⟨hoi, hop⟩, hci, hcp⟩, rfl, rfl⟩
    exact ⟨before, between, after, heq, hb, hm, hne, ha, ⟨pair.opening_ne_nil, hoi, hop⟩,
      pair.closing_ne_nil, hci, hcp⟩

/-- Blanks at its ends make no difference to what a text spells. -/
theorem Spells.trim {text : List Char} {pair : Delimiters} (h : Spells text pair) :
    Spells (trim text) pair := by
  have hwords := words_of_spells h
  rw [← words_trim] at hwords
  obtain ⟨_, _, _, _, _, _, _, _, ⟨_, ho⟩, ⟨_, hc⟩⟩ := h
  exact spells_of_words hwords ho hc

end Delimiters

/-- Whatever is between two equal signs asks for delimiters. -/
theorem Tag.classify_switch (text : List Char) (position : Int) :
    Tag.classify ('=' :: (text ++ ['='])) false position =
      ⟨String.ofList (trim text), .switch, position⟩ := by
  simp [Tag.classify]

namespace Template

/-- A tag is not a triple one if what comes after its opening delimiter is no brace. -/
theorem opens_of_head? {pair : Delimiters} {inside : List Char} (h : inside.head? ≠ some '{') :
    Opens pair (pair.opening ++ inside) false inside := by
  have htriple : isTriple pair inside = false := by
    rw [isTriple, beq_eq_false_iff_ne.2 h, Bool.and_false]
  have hopens := opens_isTriple pair inside
  simpa only [insideOf, htriple, Bool.false_eq_true, if_false] using hopens

/-- A text starts with no brace if it does not when the blanks before it are trimmed away. -/
theorem head?_ne_of_trim {text rest : List Char} {c : Char} (h : trim text = c :: rest)
    (hc : c ≠ '{') (more : List Char) : (text ++ more).head? ≠ some '{' := by
  cases text with
  | nil => cases h
  | cons d text =>
    rw [List.cons_append, List.head?_cons, ne_eq, Option.some.injEq]
    rintro rfl
    rw [trim_cons (by decide)] at h
    exact hc (List.cons.inj h).1.symm

/-- **A tag that spells a pair between equal signs switches to that pair**, and reading goes on with it. -/
theorem Cursor.step_of_switch {cursor : Cursor} {before interior rest text : List Char}
    {pair : Delimiters}
    (hf : FirstAt cursor.delimiters.opening cursor.rest before
      (interior ++ cursor.delimiters.closing ++ rest))
    (hc : FirstAt cursor.delimiters.closing (interior ++ cursor.delimiters.closing ++ rest) interior
      rest)
    (ht : trim interior = '=' :: (text ++ ['='])) (hs : Delimiters.Spells text pair) :
    let start := cursor.offset + before.length
    let written := cursor.delimiters.opening ++ interior ++ cursor.delimiters.closing
    cursor.step =
      (cursor.textSegment before ++
        [⟨start, written, cursor.delimiters, pair,
          .tag ⟨String.ofList (trim text), .switch, start⟩⟩],
        some ⟨pair, start + written.length, rest⟩) := by
  intro start written
  -- a brace right behind the delimiter could make it three, but the interior begins with a blank or an
  -- equal sign
  have hhead : (interior ++ cursor.delimiters.closing ++ rest).head? ≠ some '{' := by
    rw [List.append_assoc]
    exact head?_ne_of_trim ht (by decide) _
  have hb : Bounds cursor.delimiters
      (cursor.delimiters.opening ++ (interior ++ cursor.delimiters.closing ++ rest))
      ⟨false, interior, written, rest⟩ := ⟨⟨_, opens_of_head? hhead, hc⟩, rfl⟩
  have htag : (⟨false, interior, written, rest⟩ : Bounded).tag start =
      ⟨String.ofList (trim text), .switch, start⟩ := by
    rw [Bounded.tag, ht, Tag.classify_switch]
  have hn : Follows cursor.delimiters ((⟨false, interior, written, rest⟩ : Bounded).tag start)
      pair := by
    rw [htag]
    refine .switched rfl ?_
    rw [String.toList_ofList]
    exact hs.trim
  rw [step_of_tag hf hb hn, tagSegment, htag]
  rfl

/-- **A text is read as the two delimiters that it spells**, and it is refused, with the place where it
stands, if it spells none. With an equal sign on either side it is a tag that switches the delimiters:
whichever are in force, wherever such a tag stands, the reader takes it for one and goes on after it with
the two delimiters that it spells. -/
theorem read_decides (text : String) (position : Int) :
    (∀ opening closing,
      (∃ pair, Delimiters.read text position = .ok pair ∧ pair.opening = opening ∧
        pair.closing = closing) ↔ Delimiters.Spelling text.toList opening closing) ∧
    (∀ error, Delimiters.read text position = .error error ↔
      error = .invalidDelimiters text position ∧
        ∀ opening closing, ¬ Delimiters.Spelling text.toList opening closing) ∧
    ∀ opening closing, Delimiters.Spelling text.toList opening closing →
      let tag : Tag := ⟨String.ofList (trim text.toList), .switch, position⟩
      ∃ pair : Delimiters, pair.opening = opening ∧ pair.closing = closing ∧
        Tag.classify ('=' :: (text.toList ++ ['='])) false position = tag ∧
        Delimiters.read tag.name position = .ok pair ∧
        ∀ (cursor : Cursor) (before interior rest : List Char),
          FirstAt cursor.delimiters.opening cursor.rest before
            (interior ++ cursor.delimiters.closing ++ rest) →
          FirstAt cursor.delimiters.closing (interior ++ cursor.delimiters.closing ++ rest) interior
            rest →
          trim interior = '=' :: (text.toList ++ ['=']) →
          let start := cursor.offset + before.length
          let written := cursor.delimiters.opening ++ interior ++ cursor.delimiters.closing
          cursor.step =
            (cursor.textSegment before ++
              [⟨start, written, cursor.delimiters, pair, .tag { tag with position := start }⟩],
              some ⟨pair, start + written.length, rest⟩) := by
  refine ⟨fun opening closing => ?_, fun error => ?_, fun opening closing h => ?_⟩
  · simp only [Delimiters.read_eq_ok_iff, Delimiters.spelling_iff]
  · simp only [Delimiters.read_eq_error_iff, Delimiters.spelling_iff]
    refine and_congr_right fun _ => ⟨?_, fun hn pair hs => hn _ _ ⟨pair, hs, rfl, rfl⟩⟩
    rintro hn opening closing ⟨pair, hs, _⟩
    exact hn pair hs
  · obtain ⟨pair, hs, ho, hc⟩ := Delimiters.spelling_iff.1 h
    refine ⟨pair, ho, hc, Tag.classify_switch _ _, ?_, ?_⟩
    · rw [Delimiters.read_eq_ok_iff, String.toList_ofList]
      exact hs.trim
    · intro cursor before interior rest hf hclosing ht
      exact Cursor.step_of_switch hf hclosing ht hs

/-- A place in a template, with a switch to the words `<|` and `|>` to come after one letter. -/
def switchAhead : Cursor := ⟨.braces, 3, "a{{ = <|  |> =}}b".toList⟩

def triangles : Delimiters := ⟨['<', '|'], ['|', '>'], by simp, by simp⟩

/-- The blanks around the words and those around the equal signs are no part of the delimiters. -/
theorem read_decides_switchAhead :
    Delimiters.Spelling " <|  |> ".toList ['<', '|'] ['|', '>'] ∧
      Delimiters.read " <|  |> " 4 = .ok triangles ∧
      FirstAt switchAhead.delimiters.opening switchAhead.rest ['a']
        (" = <|  |> =".toList ++ switchAhead.delimiters.closing ++ ['b']) ∧
      trim " = <|  |> =".toList = '=' :: (" <|  |> ".toList ++ ['=']) ∧
      switchAhead.step =
        ([⟨3, ['a'], .braces, .braces, .text ['a']⟩,
          ⟨4, "{{ = <|  |> =}}".toList, .braces, triangles, .tag ⟨"<|  |>", .switch, 4⟩⟩],
          some ⟨triangles, 19, ['b']⟩) := by
  have hread : Delimiters.read " <|  |> " 4 = .ok triangles := rfl
  obtain ⟨hiff, _, hswitch⟩ := read_decides " <|  |> " 4
  have hs := (hiff ['<', '|'] ['|', '>']).1 ⟨triangles, hread, rfl, rfl⟩
  have hf : FirstAt switchAhead.delimiters.opening switchAhead.rest ['a']
      (" = <|  |> =".toList ++ switchAhead.delimiters.closing ++ ['b']) := cut_eq_some_iff.1 rfl
  have hc : FirstAt switchAhead.delimiters.closing
      (" = <|  |> =".toList ++ switchAhead.delimiters.closing ++ ['b']) " = <|  |> =".toList
      ['b'] := cut_eq_some_iff.1 rfl
  have ht : trim " = <|  |> =".toList = '=' :: (" <|  |> ".toList ++ ['=']) := rfl
  obtain ⟨pair, ho, hcl, _, hname, hstep⟩ := hswitch _ _ hs
  -- the theorem gives some pair, and reading its name tells which
  have hpair : pair = triangles := Except.ok.inj (hname.symm.trans rfl)
  refine ⟨hs, hread, hf, ht, ?_⟩
  rw [hstep switchAhead ['a'] _ ['b'] hf hc ht, hpair]
  rfl

end Template

end Stencil

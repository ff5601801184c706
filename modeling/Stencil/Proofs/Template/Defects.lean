import Stencil.Proofs.Template.Lexing
import Stencil.Proofs.Template.Nesting
import Stencil.Template.Reading

/-!
# The defects of a source

Which sources are templates, and what is wrong with the others, is said here without reading them the
way the reader does. A source is told as its tags from left to right and what stops the telling, if
anything does (`Lexes`). The tags are then looked at as a whole: whether a section end is unmatched
among them, and, if the telling was not stopped, whether each section is closed under its name.

`Balanced` and `Defect` put this together, and reading a source comes to the same (`parse_decides`). It
gets there by another way. The reader goes from left to right only once and stops at the first defect
that shows; names are compared when all else is done, on a tree.
-/

set_option autoImplicit false

namespace Stencil.Template

open Text

/-! ## A source as tags -/

/-- From this place on, the tags of a source up to the first one that is faulty, and its fault. -/
inductive Lexes : Delimiters → Nat → List Char → List Tag → Option SyntaxError → Prop
  | text {pair : Delimiters} {offset : Nat} {rest : List Char} (hn : ¬ pair.opening <:+: rest) :
    Lexes pair offset rest [] none
  | unterminated {pair : Delimiters} {offset : Nat} {rest before after inside : List Char}
    {triple : Bool} (hf : FirstAt pair.opening rest before after)
    (ho : Opens pair (pair.opening ++ after) triple inside)
    (hn : ¬ closingOf pair triple <:+: inside) :
    Lexes pair offset rest [] (some (.unterminatedTag (offset + before.length)))
  | refused {pair : Delimiters} {offset : Nat} {rest before after : List Char} {bounded : Bounded}
    {tag : Tag} (hf : FirstAt pair.opening rest before after)
    (hb : Bounds pair (pair.opening ++ after) bounded)
    (ht : tag = bounded.tag (offset + before.length)) (hr : Refused tag) :
    Lexes pair offset rest [] (some (.invalidDelimiters tag.name tag.position))
  | tag {pair next : Delimiters} {offset : Nat} {rest before after : List Char} {bounded : Bounded}
    {tag : Tag} {tags : List Tag} {stop : Option SyntaxError}
    (hf : FirstAt pair.opening rest before after)
    (hb : Bounds pair (pair.opening ++ after) bounded)
    (ht : tag = bounded.tag (offset + before.length)) (hn : Follows pair tag next)
    (hl : Lexes next (offset + before.length + bounded.written.length) bounded.rest tags stop) :
    Lexes pair offset rest (tag :: tags) stop

section Texts

variable (cursor : Cursor) (text : List Char) (segments : List Segment)

theorem tagsOf_textSegment_append :
    tagsOf (cursor.textSegment text ++ segments) = tagsOf segments := by
  unfold Cursor.textSegment
  split <;> rfl

theorem faultOf?_textSegment_append :
    faultOf? (cursor.textSegment text ++ segments) = faultOf? segments := by
  unfold Cursor.textSegment
  split <;> rfl

end Texts

theorem lexes_segments (cursor : Cursor) :
    Lexes cursor.delimiters cursor.offset cursor.rest (tagsOf cursor.segments)
      (faultOf? cursor.segments) := by
  refine Cursor.segments_induction
    (motive := fun cursor segments => Lexes cursor.delimiters cursor.offset cursor.rest
      (tagsOf segments) (faultOf? segments))
    (fun cursor read hs => ?_) (fun cursor read next hs ih => ?_) cursor
  · cases hs with
    | text hn =>
      rw [← List.append_nil (cursor.textSegment _), tagsOf_textSegment_append,
        faultOf?_textSegment_append]
      exact .text hn
    | unterminated hf ho hn =>
      rw [tagsOf_textSegment_append, faultOf?_textSegment_append]
      exact .unterminated hf ho hn
    | refused hf hb hr =>
      rw [tagsOf_textSegment_append, faultOf?_textSegment_append]
      exact .refused hf hb rfl hr
  · cases hs with
    | tag hf hb hn =>
      rw [List.append_assoc, tagsOf_textSegment_append, faultOf?_textSegment_append]
      exact .tag hf hb rfl hn ih

/-- What a source is told as is what its segments tell. -/
theorem eq_of_lexes {pair : Delimiters} {offset : Nat} {rest : List Char} {tags : List Tag}
    {stop : Option SyntaxError} (h : Lexes pair offset rest tags stop) :
    tags = tagsOf (Cursor.segments ⟨pair, offset, rest⟩) ∧
      stop = faultOf? (Cursor.segments ⟨pair, offset, rest⟩) := by
  -- each rule determines the step that the reader takes
  induction h with
  | @text pair offset rest hn =>
    rw [Cursor.segments_eq, Cursor.step_of_text hn, tagsOf_textSegment_append,
      faultOf?_textSegment_append]
    exact ⟨rfl, rfl⟩
  | @unterminated pair offset rest before after inside triple hf ho hn =>
    rw [Cursor.segments_eq, Cursor.step_of_unterminated hf (bound?_eq_none ho hn),
      List.append_assoc, tagsOf_textSegment_append, faultOf?_textSegment_append]
    exact ⟨rfl, rfl⟩
  | refused hf hb ht hr =>
    subst ht
    rw [Cursor.segments_eq, Cursor.step_of_refused hf hb hr, List.append_assoc,
      tagsOf_textSegment_append, faultOf?_textSegment_append]
    exact ⟨rfl, rfl⟩
  | tag hf hb ht hn _ ih =>
    subst ht
    rw [Cursor.segments_eq, Cursor.step_of_tag hf hb hn, List.append_assoc,
      tagsOf_textSegment_append, faultOf?_textSegment_append]
    exact ⟨congrArg _ ih.1, ih.2⟩

theorem Lexes.unique {pair : Delimiters} {offset : Nat} {rest : List Char} {tags others : List Tag}
    {stop other : Option SyntaxError} (h : Lexes pair offset rest tags stop)
    (h' : Lexes pair offset rest others other) : tags = others ∧ stop = other := by
  obtain ⟨rfl, rfl⟩ := eq_of_lexes h
  obtain ⟨rfl, rfl⟩ := eq_of_lexes h'
  exact ⟨rfl, rfl⟩

/-! ## Tags stand in order -/

theorem position_classify (contents : List Char) (triple : Bool) (position : Int) :
    (Tag.classify contents triple position).position = position := by
  unfold Tag.classify
  split
  · rfl
  · split
    · rfl
    · split
      · rfl
      · split <;> rfl

theorem Lexes.le_position {pair : Delimiters} {offset : Nat} {rest : List Char} {tags : List Tag}
    {stop : Option SyntaxError} (h : Lexes pair offset rest tags stop) :
    ∀ tag ∈ tags, (offset : Int) ≤ tag.position := by
  induction h with
  | text | unterminated | refused => exact fun tag hm => absurd hm List.not_mem_nil
  | tag hf hb ht hn _ ih =>
    intro tag hm
    rcases List.mem_cons.1 hm with rfl | hm
    · rw [ht, Bounded.tag, position_classify]
      omega
    · have hle := ih tag hm
      omega

theorem Lexes.sorted {pair : Delimiters} {offset : Nat} {rest : List Char} {tags : List Tag}
    {stop : Option SyntaxError} (h : Lexes pair offset rest tags stop) :
    tags.Pairwise fun tag later => tag.position < later.position := by
  induction h with
  | text | unterminated | refused => exact .nil
  | tag hf hb ht hn hl ih =>
    refine .cons (fun later hm => ?_) ih
    have hle := hl.le_position later hm
    have hlength := List.length_pos_iff.2 hb.written_ne_nil
    rw [ht, Bounded.tag, position_classify]
    omega

/-! ## Templates and defects -/

/-- The source is a template: it can be told to its end, no section ends that was not begun, and each
section is closed under its name. -/
def Balanced (source : String) : Prop :=
  ∃ tags, Lexes .braces 0 source.toList tags none ∧
    (∀ before tag, ¬ Unmatched 0 tags before tag) ∧ ∀ before tag, ¬ Unclosed tags before tag

/-- The defect that a source is refused for. What shows from left to right comes first: a section end
that is unmatched, or what stops the telling. If nothing of the kind shows, it is the section that is
not closed and stands furthest to the left. -/
inductive Defect (source : String) : SyntaxError → Prop
  | unmatched {tags before : List Tag} {tag : Tag} {stop : Option SyntaxError}
    (hl : Lexes .braces 0 source.toList tags stop) (hu : First (Unmatched 0 tags) before tag) :
    Defect source (.unmatchedSectionEnd tag.name tag.position)
  | stopped {tags : List Tag} {error : SyntaxError}
    (hl : Lexes .braces 0 source.toList tags (some error))
    (hn : ∀ before tag, ¬ Unmatched 0 tags before tag) : Defect source error
  | unclosed {tags before : List Tag} {tag : Tag} (hl : Lexes .braces 0 source.toList tags none)
    (hn : ∀ before tag, ¬ Unmatched 0 tags before tag) (hu : Unclosed tags before tag)
    (hf : ∀ earlier other, Unclosed tags earlier other → tag.position ≤ other.position) :
    Defect source (.unclosedSection tag.name tag.position)

theorem position_lt_of_sorted {tags before earlier after later : List Tag} {tag other : Tag}
    (hs : tags.Pairwise fun tag later => tag.position < later.position)
    (h : tags = earlier ++ other :: later) (h' : tags = before ++ tag :: after)
    (hlt : earlier.length < before.length) : other.position < tag.position := by
  have hother : tags[earlier.length]? = some other := by rw [h]; simp
  have htag : tags[before.length]? = some tag := by rw [h']; simp
  obtain ⟨hi, rfl⟩ := List.getElem?_eq_some_iff.1 hother
  obtain ⟨hj, rfl⟩ := List.getElem?_eq_some_iff.1 htag
  exact List.pairwise_iff_getElem.1 hs _ _ hi hj hlt

/-- Of the sections that are not closed, the first is the one furthest to the left. -/
theorem first_unclosed_iff {tags before : List Tag} {tag : Tag}
    (hs : tags.Pairwise fun tag later => tag.position < later.position)
    (hu : Unclosed tags before tag) :
    First (Unclosed tags) before tag ↔
      ∀ earlier other, Unclosed tags earlier other → tag.position ≤ other.position := by
  obtain ⟨after, htags, _⟩ := hu.reached
  constructor
  · rintro ⟨_, hf⟩ earlier other ho
    obtain ⟨later, heq, _⟩ := ho.reached
    -- to have fewer tags before it and to stand further to the left is the same
    rcases Nat.lt_or_eq_of_le (hf ho) with hlt | hlen
    · exact Int.le_of_lt (position_lt_of_sorted hs htags heq hlt)
    · have hcons := (List.append_inj (htags.symm.trans heq) hlen).2
      exact Int.le_of_eq (congrArg Tag.position (List.cons.inj hcons).1)
  · intro hle
    refine ⟨hu, fun {earlier other} ho => ?_⟩
    obtain ⟨later, heq, _⟩ := ho.reached
    by_cases hlt : earlier.length < before.length
    · have hpos := position_lt_of_sorted hs heq htags hlt
      have := hle earlier other ho
      omega
    · omega

/-! ## What the reader decides -/

/-- What is wrong with the segments of a whole source. -/
def defectOf? (segments : List Segment) : Option SyntaxError :=
  (defect? 0 segments).or
    ((unclosedOf? (tagsOf segments)).map fun tag => .unclosedSection tag.name tag.position)

theorem parse_cases (source : String) :
    (∃ document, parse source = .ok document ∧ defectOf? (segments .braces source.toList) = none) ∨
      ∃ error, parse source = .error error ∧
        defectOf? (segments .braces source.toList) = some error := by
  have hd := defect?_of_nest [] [] (segments .braces source.toList)
  have hd : defect? 0 (segments .braces source.toList) = _ := hd
  simp only [parse, read, readFrom, defectOf?, hd]
  cases hn : Draft.nest [] [] (segments .braces source.toList) with
  | error stop => exact .inr ⟨_, rfl, rfl⟩
  | ok drafts =>
    have hu := unclosedIn?_of_nests (nests_of_nest hn)
    have hu : Draft.unclosedIn? drafts = unclosedOf? (tagsOf (segments .braces source.toList)) := hu
    simp only [close, hu]
    cases unclosedOf? (tagsOf (segments .braces source.toList)) with
    | none => exact .inl ⟨_, rfl, rfl⟩
    | some tag => exact .inr ⟨_, rfl, rfl⟩

theorem defect?_eq_some_iff {segments : List Segment} {error : SyntaxError} :
    defect? 0 segments = some error ↔
      (∃ before tag, First (Unmatched 0 (tagsOf segments)) before tag ∧
        error = .unmatchedSectionEnd tag.name tag.position) ∨
      (∀ before tag, ¬ Unmatched 0 (tagsOf segments) before tag) ∧
        faultOf? segments = some error := by
  unfold defect?
  -- the tags stand before the fault, so an end among them that closes nothing is met first
  cases hp : partner? 0 (tagsOf segments) with
  | none =>
    have hn := partner?_eq_none_iff.1 hp
    constructor
    · exact fun h => .inr ⟨hn, h⟩
    · rintro (⟨before, tag, hu, _⟩ | ⟨_, h⟩)
      · exact absurd hu.here (hn before tag)
      · exact h
  | some tag =>
    constructor
    · intro h
      obtain ⟨before, hu⟩ := partner?_eq_some_iff.1 hp
      exact .inl ⟨before, tag, hu, (Option.some.inj h).symm⟩
    · rintro (⟨before, other, hu, rfl⟩ | ⟨hn, _⟩)
      · have hother := partner?_eq_some_iff.2 ⟨before, hu⟩
        rw [hp] at hother
        cases hother
        rfl
      · rw [partner?_eq_none_iff.2 hn] at hp
        cases hp

theorem defect?_eq_none_iff {segments : List Segment} :
    defect? 0 segments = none ↔
      (∀ before tag, ¬ Unmatched 0 (tagsOf segments) before tag) ∧ faultOf? segments = none := by
  rw [← partner?_eq_none_iff, defect?]
  cases partner? 0 (tagsOf segments) with
  | none => simp
  | some tag => simp

theorem defectOf?_eq_some_iff (source : String) (error : SyntaxError) :
    defectOf? (segments .braces source.toList) = some error ↔ Defect source error := by
  have hl : Lexes .braces 0 source.toList (tagsOf (segments .braces source.toList))
      (faultOf? (segments .braces source.toList)) := lexes_segments ⟨.braces, 0, source.toList⟩
  rw [defectOf?, Option.or_eq_some_iff, defect?_eq_some_iff, defect?_eq_none_iff,
    Option.map_eq_some_iff]
  constructor
  · rintro ((⟨before, tag, hu, rfl⟩ | ⟨hn, hf⟩) | ⟨⟨hn, hf⟩, tag, hu, rfl⟩)
    · exact .unmatched hl hu
    · exact .stopped (hf ▸ hl) hn
    · obtain ⟨before, hu⟩ := unclosedOf?_eq_some_iff.1 hu
      exact .unclosed (hf ▸ hl) hn hu.here ((first_unclosed_iff hl.sorted hu.here).1 hu)
  · intro h
    cases h with
    | unmatched ht hu =>
      obtain ⟨rfl, _⟩ := ht.unique hl
      exact .inl (.inl ⟨_, _, hu, rfl⟩)
    | stopped ht hn =>
      obtain ⟨rfl, hf⟩ := ht.unique hl
      exact .inl (.inr ⟨hn, hf.symm⟩)
    | unclosed ht hn hu hf =>
      obtain ⟨rfl, hstop⟩ := ht.unique hl
      have hfirst := (first_unclosed_iff hl.sorted hu).2 hf
      exact .inr ⟨⟨hn, hstop.symm⟩, _, unclosedOf?_eq_some_iff.2 ⟨_, hfirst⟩, rfl⟩

theorem defectOf?_eq_none_iff (source : String) :
    defectOf? (segments .braces source.toList) = none ↔ Balanced source := by
  have hl : Lexes .braces 0 source.toList (tagsOf (segments .braces source.toList))
      (faultOf? (segments .braces source.toList)) := lexes_segments ⟨.braces, 0, source.toList⟩
  rw [defectOf?, Option.or_eq_none_iff, defect?_eq_none_iff, Option.map_eq_none_iff,
    unclosedOf?_eq_none_iff]
  constructor
  · rintro ⟨⟨hn, hf⟩, hu⟩
    exact ⟨_, hf ▸ hl, hn, hu⟩
  · rintro ⟨tags, ht, hn, hu⟩
    obtain ⟨rfl, hf⟩ := ht.unique hl
    exact ⟨⟨hn, hf.symm⟩, hu⟩

theorem parse_eq_error_iff {source : String} {error : SyntaxError} :
    parse source = .error error ↔ Defect source error := by
  rw [← defectOf?_eq_some_iff]
  rcases parse_cases source with ⟨document, hp, hd⟩ | ⟨other, hp, hd⟩
  · rw [hp, hd]
    exact iff_of_false nofun nofun
  · rw [hp, hd, Except.error.injEq, Option.some.injEq]

/-- **Reading decides what is a template, and finds the right defect in what is not.** -/
theorem parse_decides (source : String) :
    ((∃ document, parse source = .ok document) ↔ Balanced source) ∧
      ∀ error, parse source = .error error ↔ Defect source error := by
  rcases parse_cases source with ⟨document, hp, hd⟩ | ⟨error, hp, hd⟩
  · refine ⟨iff_of_true ⟨document, hp⟩ ((defectOf?_eq_none_iff source).1 hd), fun error => ?_⟩
    rw [← defectOf?_eq_some_iff, hd, hp]
    exact iff_of_false nofun nofun
  · refine ⟨?_, fun other => ?_⟩
    · rw [← defectOf?_eq_none_iff, hd, hp]
      exact iff_of_false (fun ⟨_, h⟩ => nomatch h) nofun
    · rw [← defectOf?_eq_some_iff, hd, hp, Except.error.injEq, Option.some.injEq]

end Stencil.Template

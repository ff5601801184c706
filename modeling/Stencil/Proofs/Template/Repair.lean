import Mathlib.Data.List.Basic
import Stencil.Proofs.Template.Defects

/-!
# What more text can repair

Some defects of a source are defects of all sources that start with it. The tags of a source are found
again in whatever it is the start of, and so is a tag that switches the delimiters to no pair
(`Lexes.followed`). What pairs sections only looks ahead as far as the end that it finds
(`partner?_append`), so an end that closes nothing and an end that bears the wrong name are there to stay.

More text can only help where something is still to come: the end of a tag, or the end of a section
(`Pending`). That is all that can be wrong with the start of a template (`parse_followed`).
-/

set_option autoImplicit false

namespace Stencil.Template

/-! ## Tags that more text follows -/

/-- **The tags of a source are the first tags of whatever it is the start of**, and a refused tag is
still refused. -/
theorem Lexes.followed {pair : Delimiters} {offset : Nat} {rest : List Char} {tags : List Tag}
    {stop : Option SyntaxError} (h : Lexes pair offset rest tags stop) (more : List Char) :
    ∃ later stop', Lexes pair offset (rest ++ more) (tags ++ later) stop' ∧
      ∀ text position, stop = some (.invalidDelimiters text position) →
        later = [] ∧ stop' = stop := by
  induction h with
  | text | unterminated =>
    -- nothing has been found yet, and anything may come
    exact ⟨_, _, lexes_segments ⟨_, _, _⟩, nofun⟩
  | refused hf hb ht hr =>
    have hb := hb.followed more
    rw [List.append_assoc] at hb
    exact ⟨[], _, .refused (hf.followed more) hb ht hr, fun _ _ _ => ⟨rfl, rfl⟩⟩
  | tag hf hb ht hn _ ih =>
    obtain ⟨later, stop', hl, hsame⟩ := ih
    have hb := hb.followed more
    rw [List.append_assoc] at hb
    exact ⟨later, stop', .tag (hf.followed more) hb ht hn hl, hsame⟩

/-- What stops the telling of a source is never a matter of its sections. -/
theorem Lexes.stop_cases {pair : Delimiters} {offset : Nat} {rest : List Char} {tags : List Tag}
    {error : SyntaxError} (h : Lexes pair offset rest tags (some error)) :
    (∃ position, error = .unterminatedTag position) ∨
      ∃ text position, error = .invalidDelimiters text position := by
  generalize hs : some error = stop at h
  induction h with
  | text => cases hs
  | unterminated =>
    cases hs
    exact .inl ⟨_, rfl⟩
  | refused =>
    cases hs
    exact .inr ⟨_, _, rfl⟩
  | tag _ _ _ _ _ ih => exact ih hs

/-- Tags that come after the partner of a section play no part in finding it. -/
theorem partner?_append {depth : Nat} {tags : List Tag} {tag : Tag}
    (h : partner? depth tags = some tag) (later : List Tag) :
    partner? depth (tags ++ later) = some tag := by
  -- over the tags, at any depth: wherever the search stops, it has not come to the later ones
  induction tags generalizing depth with
  | nil =>
    rw [partner?_nil] at h
    cases h
  | cons head rest ih =>
    rw [List.cons_append]
    cases hb : head.isSectionBegin with
    | true =>
      rw [partner?_cons_of_begin hb] at h ⊢
      exact ih h
    | false =>
      cases he : head.isSectionEnd with
      | false =>
        rw [partner?_cons_of_other hb he] at h ⊢
        exact ih h
      | true =>
        cases depth with
        | zero =>
          rw [partner?_zero_cons_of_end he] at h ⊢
          exact h
        | succ depth =>
          rw [partner?_succ_cons_of_end he] at h ⊢
          exact ih h

/-! ## Defects that are there to stay -/

/-- A section of this name begins at the position, and these are the tags after its begin. The source can
be told to its end. -/
def SectionAt (source name : String) (position : Int) (after : List Tag) : Prop :=
  ∃ before opening, Lexes .braces 0 source.toList (before ++ opening :: after) none ∧
    opening.isSectionBegin = true ∧ opening.name = name ∧ opening.position = position

/-- Something is still to come: the end of a tag, or of a section. -/
inductive Pending (source : String) : SyntaxError → Prop
  | tag {position : Int} : Pending source (.unterminatedTag position)
  | block {name : String} {position : Int} {after : List Tag}
    (hs : SectionAt source name position after) (hp : partner? 0 after = none) :
    Pending source (.unclosedSection name position)

theorem Defect.unmatched_followed {source : String} {name : String} {position : Int}
    (h : Defect source (.unmatchedSectionEnd name position)) (more : String) :
    Defect (source ++ more) (.unmatchedSectionEnd name position) := by
  cases h with
  | @unmatched tags before tag stop hl hu =>
    obtain ⟨later, stop', hl', _⟩ := hl.followed more.toList
    rw [← String.toList_append] at hl'
    have hpartner := partner?_append (partner?_eq_some_iff.2 ⟨before, hu⟩) later
    obtain ⟨earlier, hfirst⟩ := partner?_eq_some_iff.1 hpartner
    exact .unmatched hl' hfirst
  | stopped hl hn =>
    rcases hl.stop_cases with ⟨_, h⟩ | ⟨_, _, h⟩ <;> cases h

theorem Defect.refused_followed {source text : String} {position : Int}
    (h : Defect source (.invalidDelimiters text position)) (more : String) :
    Defect (source ++ more) (.invalidDelimiters text position) := by
  cases h with
  | stopped hl hn =>
    obtain ⟨later, stop', hl', hsame⟩ := hl.followed more.toList
    obtain ⟨rfl, rfl⟩ := hsame text position rfl
    rw [← String.toList_append, List.append_nil] at hl'
    exact .stopped hl' hn

/-- A section whose end bears another name keeps a source from being a template, whatever follows. -/
theorem not_balanced_followed {source name : String} {position : Int} {after : List Tag}
    {closing : Tag} (hs : SectionAt source name position after)
    (hp : partner? 0 after = some closing) (hn : closing.name ≠ name) (more : String) :
    ¬ Balanced (source ++ more) := by
  rintro ⟨tags, hl, _, hclosed⟩
  obtain ⟨before, opening, hl', hb, rfl, _⟩ := hs
  obtain ⟨later, stop', hmore, _⟩ := hl'.followed more.toList
  rw [← String.toList_append] at hmore
  obtain ⟨rfl, _⟩ := hl.unique hmore
  refine hclosed before opening ⟨⟨after ++ later, ?_, ?_⟩, hb⟩
  · rw [List.append_assoc, List.cons_append]
  · rintro ⟨other, hother, hname⟩
    rw [partner?_append hp later] at hother
    cases hother
    exact hn hname

/-- What is wrong with the start of a template is something that is still to come. -/
theorem Defect.pending {source more : String} {error : SyntaxError} (h : Defect source error)
    (hb : Balanced (source ++ more)) : Pending source error := by
  have hnot : ∀ {other}, ¬ Defect (source ++ more) other := fun {other} hd => by
    rw [← defectOf?_eq_some_iff, (defectOf?_eq_none_iff _).2 hb] at hd
    cases hd
  -- every defect but two is there to stay, and then the longer source would not be balanced
  cases h with
  | unmatched hl hu => exact absurd ((Defect.unmatched hl hu).unmatched_followed more) hnot
  | stopped hl hn =>
    rcases hl.stop_cases with ⟨position, rfl⟩ | ⟨text, position, rfl⟩
    · exact .tag
    · exact absurd ((Defect.stopped hl hn).refused_followed more) hnot
  | @unclosed tags before tag hl hn hu hf =>
    obtain ⟨after, rfl, hc⟩ := hu.reached
    have hs : SectionAt source tag.name tag.position after :=
      ⟨before, tag, hl, hu.isBegin, rfl, rfl⟩
    cases hp : partner? 0 after with
    | none => exact .block hs hp
    | some closing =>
      -- the section has its end already, and it is unclosed because that bears another name
      have hname : closing.name ≠ tag.name := fun hname => hc ⟨closing, hp, hname⟩
      exact absurd hb (not_balanced_followed hs hp hname more)

/-! ## What more text does to a defect -/

theorem balanced_of_parse {source : String} {document : Document}
    (h : parse source = .ok document) : Balanced source := by
  rw [← defectOf?_eq_none_iff]
  rcases parse_cases source with ⟨_, _, hd⟩ | ⟨error, hp, _⟩
  · exact hd
  · rw [hp] at h
    cases h

theorem exists_error_of_not_balanced {source : String} (h : ¬ Balanced source) :
    ∃ error, parse source = .error error := by
  cases hp : parse source with
  | ok document => exact absurd (balanced_of_parse hp) h
  | error error => exact ⟨error, rfl⟩

/-- **Some defects cannot be repaired by more text.** A section end that closes nothing and a refused tag
are reported as before, and a section whose end bears another name fails in one way or another. So a
source that can still become a template lacks the end of a tag, or of a section. -/
theorem parse_followed (source more : String) :
    (∀ name position, parse source = .error (.unmatchedSectionEnd name position) →
      parse (source ++ more) = .error (.unmatchedSectionEnd name position)) ∧
    (∀ text position, parse source = .error (.invalidDelimiters text position) →
      parse (source ++ more) = .error (.invalidDelimiters text position)) ∧
    (∀ name position after closing, parse source = .error (.unclosedSection name position) →
      SectionAt source name position after → partner? 0 after = some closing →
      closing.name ≠ name → ∃ error, parse (source ++ more) = .error error) ∧
    ∀ document error, parse (source ++ more) = .ok document → parse source = .error error →
      Pending source error := by
  refine ⟨fun name position h => ?_, fun text position h => ?_,
    fun name position after closing _ hs hp hn => ?_, fun document error h he => ?_⟩
  · exact parse_eq_error_iff.2 ((parse_eq_error_iff.1 h).unmatched_followed more)
  · exact parse_eq_error_iff.2 ((parse_eq_error_iff.1 h).refused_followed more)
  · exact exists_error_of_not_balanced (not_balanced_followed hs hp hn more)
  · exact (parse_eq_error_iff.1 he).pending (balanced_of_parse h)

/-- A section end with nothing to close, a tag that asks for one delimiter only, a section that is ended
under another name, and a section that is ended by what follows. -/
theorem parse_followed_samples :
    (parse "{{/a}}" = .error (.unmatchedSectionEnd "a" 0) ∧
      parse ("{{/a}}" ++ "{{#a}}") = .error (.unmatchedSectionEnd "a" 0)) ∧
    (parse "{{=a=}}" = .error (.invalidDelimiters "a" 0) ∧
      parse ("{{=a=}}" ++ "{{=a b=}}") = .error (.invalidDelimiters "a" 0)) ∧
    (parse "{{#a}}{{/b}}" = .error (.unclosedSection "a" 0) ∧
      ∃ error, parse ("{{#a}}{{/b}}" ++ "{{/a}}") = .error error) ∧
    parse "{{#a}}" = .error (.unclosedSection "a" 0) ∧
      parse ("{{#a}}" ++ "{{/a}}") =
        .ok ⟨[⟨.tag ⟨"a", .sectionBegin, 0⟩, []⟩], "{{#a}}{{/a}}"⟩ ∧
      Pending "{{#a}}" (.unclosedSection "a" 0) := by
  have hunmatched : parse "{{/a}}" = .error (.unmatchedSectionEnd "a" 0) := by cbv
  have hrefused : parse "{{=a=}}" = .error (.invalidDelimiters "a" 0) := by
    have hread : segments .braces "{{=a=}}".toList =
        [⟨0, "{{=a=}}".toList, .braces, .braces, .fault (.invalidDelimiters "a" 0)⟩] := by
      rw [segments, Cursor.segments_eq]
      rfl
    simp only [parse, read, readFrom, hread]
    rfl
  have hmisnamed : parse "{{#a}}{{/b}}" = .error (.unclosedSection "a" 0) := by cbv
  have hsection : SectionAt "{{#a}}{{/b}}" "a" 0 [⟨"b", .sectionEnd, 6⟩] := by
    have htags : tagsOf (segments .braces "{{#a}}{{/b}}".toList) =
        [] ++ [⟨"a", .sectionBegin, 0⟩, ⟨"b", .sectionEnd, 6⟩] := by cbv
    have hstop : faultOf? (segments .braces "{{#a}}{{/b}}".toList) = none := by cbv
    refine ⟨[], ⟨"a", .sectionBegin, 0⟩, ?_, rfl, rfl, rfl⟩
    rw [← htags, ← hstop]
    exact lexes_segments ⟨.braces, 0, _⟩
  have hopen : parse "{{#a}}" = .error (.unclosedSection "a" 0) := by cbv
  have hclosed : parse ("{{#a}}" ++ "{{/a}}") =
      .ok ⟨[⟨.tag ⟨"a", .sectionBegin, 0⟩, []⟩], "{{#a}}{{/a}}"⟩ := by cbv
  refine ⟨⟨hunmatched, (parse_followed _ _).1 _ _ hunmatched⟩,
    ⟨hrefused, (parse_followed _ _).2.1 _ _ hrefused⟩, ⟨hmisnamed, ?_⟩, hopen, hclosed,
    (parse_followed _ _).2.2.2 _ _ hclosed hopen⟩
  exact (parse_followed _ _).2.2.1 _ _ _ ⟨"b", .sectionEnd, 6⟩ hmisnamed hsection rfl (by decide)

end Stencil.Template

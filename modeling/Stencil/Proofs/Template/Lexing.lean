import Stencil.Proofs.Delimiters
import Stencil.Proofs.Text.Occurrence
import Stencil.Template.Segment

/-!
# Where tags stand in a source

Three things decide how a source falls into text and tags: where the opening delimiter is found first,
where the closing one is found first after that (`Bounds`), and which delimiters are in force after the
tag (`Follows`). They are said here without reference to the reader, and then the reader is shown to go
by them: each step of it is one of four (`Cursor.Stepped`), by an equation for each.

`Cursor.segments_induction` is how the segments of a source are reasoned about from there on. It leaves
two cases, a step that ends the reading and a step that something follows, and nobody has to look at
the recursion of the reader again.
-/

set_option autoImplicit false

namespace Stencil.Template

open Text

/-! ## A tag from its opening delimiter to its closing one -/

/-- What opens a tag. -/
def openingOf (pair : Delimiters) (triple : Bool) : List Char :=
  if triple then pair.opening ++ ['{'] else pair.opening

/-- What closes a tag. -/
def closingOf (pair : Delimiters) (triple : Bool) : List Char :=
  if triple then ['}', '}', '}'] else pair.closing

/-- A tag starts with the text, and this is inside of it and after it. The tag is a triple one if and
only if the delimiters are braces and a third one follows. -/
structure Opens (pair : Delimiters) (text : List Char) (triple : Bool) (inside : List Char) :
    Prop where
  third : triple = true ↔ pair = .braces ∧ pair.opening ++ ['{'] <+: text
  eq : text = openingOf pair triple ++ inside

/-- The text starts with this tag, which ends where what closes it is found first. -/
structure Bounds (pair : Delimiters) (text : List Char) (bounded : Bounded) : Prop where
  inside : ∃ inside, Opens pair text bounded.triple inside ∧
    FirstAt (closingOf pair bounded.triple) inside bounded.interior bounded.rest
  written : bounded.written =
    openingOf pair bounded.triple ++ bounded.interior ++ closingOf pair bounded.triple

/-- The tag that is written so, at this offset. -/
def Bounded.tag (bounded : Bounded) (start : Nat) : Tag :=
  Tag.classify (Text.trim bounded.interior) bounded.triple start

theorem Bounds.eq {pair : Delimiters} {text : List Char} {bounded : Bounded}
    (h : Bounds pair text bounded) : text = bounded.written ++ bounded.rest := by
  obtain ⟨inside, ho, hc⟩ := h.inside
  rw [ho.eq, h.written, hc.eq]
  simp only [List.append_assoc]

theorem openingOf_ne_nil (pair : Delimiters) (triple : Bool) : openingOf pair triple ≠ [] := by
  unfold openingOf
  split
  · simp
  · exact pair.opening_ne_nil

theorem closingOf_ne_nil (pair : Delimiters) (triple : Bool) : closingOf pair triple ≠ [] := by
  unfold closingOf
  split
  · exact List.cons_ne_nil _ _
  · exact pair.closing_ne_nil

theorem Bounds.written_ne_nil {pair : Delimiters} {text : List Char} {bounded : Bounded}
    (h : Bounds pair text bounded) : bounded.written ≠ [] := by
  intro hw
  rw [h.written, List.append_assoc] at hw
  exact openingOf_ne_nil pair bounded.triple (List.append_eq_nil_iff.1 hw).1

/-- How a tag is opened shows as soon as there is anything after its opening delimiter. -/
theorem Opens.followed {pair : Delimiters} {text inside : List Char} {triple : Bool}
    (h : Opens pair text triple inside) (hne : inside ≠ []) (more : List Char) :
    Opens pair (text ++ more) triple (inside ++ more) where
  third := by
    refine h.third.trans (and_congr_right fun _ => ⟨fun hp => hp.trans (List.prefix_append _ _),
      fun hp => List.prefix_of_prefix_length_le hp (List.prefix_append text more) ?_⟩)
    have hpos : 0 < inside.length := List.length_pos_iff.2 hne
    have hle : pair.opening.length ≤ (openingOf pair triple).length := by
      unfold openingOf
      split <;> simp
    rw [h.eq, List.length_append, List.length_append, List.length_singleton]
    omega
  eq := by rw [h.eq, List.append_assoc]

/-- Whatever else follows, a tag ends where it did. -/
theorem Bounds.followed {pair : Delimiters} {text : List Char} {bounded : Bounded}
    (h : Bounds pair text bounded) (more : List Char) :
    Bounds pair (text ++ more) { bounded with rest := bounded.rest ++ more } where
  inside := by
    obtain ⟨inside, ho, hc⟩ := h.inside
    have hne : inside ≠ [] := by
      rintro rfl
      have hnil := List.append_eq_nil_iff.1 (List.append_eq_nil_iff.1 hc.eq.symm).1
      exact closingOf_ne_nil pair bounded.triple hnil.2
    exact ⟨inside ++ more, ho.followed hne more, hc.followed more⟩
  written := h.written

/-! ## What the reader looks for -/

/-- Whether the reader takes the tag for a triple one. -/
def isTriple (pair : Delimiters) (after : List Char) : Bool :=
  pair.isBraces && after.head? == some '{'

/-- What the reader looks for the closing delimiter in. -/
def insideOf (pair : Delimiters) (after : List Char) : List Char :=
  if isTriple pair after then after.drop 1 else after

theorem isBraces_iff {pair : Delimiters} : pair.isBraces = true ↔ pair = .braces := by
  cases pair
  simp [Delimiters.isBraces, Delimiters.braces]

theorem isTriple_iff {pair : Delimiters} {after : List Char} :
    isTriple pair after = true ↔
      pair = .braces ∧ pair.opening ++ ['{'] <+: pair.opening ++ after := by
  rw [isTriple, Bool.and_eq_true, isBraces_iff, List.prefix_append_right_inj]
  cases after with
  | nil => simp
  | cons c rest =>
    rw [List.cons_prefix_cons, List.head?_cons]
    simp only [beq_iff_eq, Option.some.injEq, List.nil_prefix, and_true]
    rw [eq_comm (a := c)]

theorem opens_isTriple (pair : Delimiters) (after : List Char) :
    Opens pair (pair.opening ++ after) (isTriple pair after) (insideOf pair after) := by
  refine ⟨isTriple_iff, ?_⟩
  unfold openingOf insideOf
  split
  · next ht =>
    obtain ⟨_, rest, hrest⟩ := isTriple_iff.1 ht
    rw [List.append_assoc] at hrest
    have hafter : ['{'] ++ rest = after := List.append_cancel_left hrest
    rw [← hafter, List.append_assoc]
    rfl
  · rfl

/-- How a tag is opened can be read off the text in one way only. -/
theorem Opens.eq_isTriple {pair : Delimiters} {after inside : List Char} {triple : Bool}
    (h : Opens pair (pair.opening ++ after) triple inside) :
    triple = isTriple pair after ∧ inside = insideOf pair after := by
  have htriple : triple = isTriple pair after := by
    rw [Bool.eq_iff_iff, h.third, isTriple_iff]
  subst htriple
  exact ⟨rfl, List.append_cancel_left (h.eq.symm.trans (opens_isTriple pair after).eq)⟩

theorem bound?_eq (pair : Delimiters) (after : List Char) :
    bound? pair after =
      (cut (closingOf pair (isTriple pair after)) (insideOf pair after)).map fun found =>
        ⟨isTriple pair after, found.1,
          openingOf pair (isTriple pair after) ++ found.1 ++ closingOf pair (isTriple pair after),
          found.2⟩ := by
  unfold bound? closingOf openingOf insideOf
  rw [← isTriple]
  cases isTriple pair after <;>
  · simp only [Bool.false_eq_true, if_false, if_true]
    split <;> next h => rw [h]; rfl

/-- **The reader bounds a tag** by what opens and what closes it. -/
theorem bound?_eq_some_iff {pair : Delimiters} {after : List Char} {bounded : Bounded} :
    bound? pair after = some bounded ↔ Bounds pair (pair.opening ++ after) bounded := by
  rw [bound?_eq, Option.map_eq_some_iff]
  constructor
  · rintro ⟨found, hc, rfl⟩
    exact ⟨⟨_, opens_isTriple pair after, cut_eq_some_iff.1 hc⟩, rfl⟩
  · rintro ⟨⟨inside, ho, hc⟩, hw⟩
    obtain ⟨triple, interior, written, rest⟩ := bounded
    -- the text leaves no choice of what opens the tag and what is inside
    obtain ⟨rfl, rfl⟩ := ho.eq_isTriple
    exact ⟨(interior, rest), cut_eq_some_iff.2 hc, by rw [← hw]⟩

theorem bound?_eq_none {pair : Delimiters} {after inside : List Char} {triple : Bool}
    (ho : Opens pair (pair.opening ++ after) triple inside)
    (hn : ¬ closingOf pair triple <:+: inside) : bound? pair after = none := by
  obtain ⟨rfl, rfl⟩ := ho.eq_isTriple
  rw [bound?_eq, Option.map_eq_none_iff]
  exact cut_eq_none_iff.2 hn

theorem not_isInfix_of_bound? {pair : Delimiters} {after : List Char}
    (h : bound? pair after = none) :
    ¬ closingOf pair (isTriple pair after) <:+: insideOf pair after := by
  rw [bound?_eq, Option.map_eq_none_iff] at h
  exact cut_eq_none_iff.1 h

/-! ## The delimiters after a tag -/

/-- These delimiters are in force after the tag: those that it spells if it switches them, and
otherwise the ones from before it. -/
inductive Follows (pair : Delimiters) (tag : Tag) : Delimiters → Prop
  | kept (h : tag.type ≠ .switch) : Follows pair tag pair
  | switched {next : Delimiters} (h : tag.type = .switch)
      (hs : Delimiters.Spells tag.name.toList next) : Follows pair tag next

/-- The tag switches the delimiters to something that is no pair. -/
structure Refused (tag : Tag) : Prop where
  switches : tag.type = .switch
  spells : ∀ pair, ¬ Delimiters.Spells tag.name.toList pair

theorem following_eq_ok_iff {pair next : Delimiters} {tag : Tag} :
    following pair tag = .ok next ↔ Follows pair tag next := by
  unfold following
  by_cases hs : tag.type = .switch
  · rw [if_pos hs, Delimiters.read_eq_ok_iff]
    constructor
    · exact .switched hs
    · intro h
      cases h with
      | kept hn => exact absurd hs hn
      | switched _ h => exact h
  · rw [if_neg hs]
    constructor
    · intro h
      cases h
      exact .kept hs
    · intro h
      cases h with
      | kept _ => rfl
      | switched h _ => exact absurd h hs

theorem following_eq_error_iff {pair : Delimiters} {tag : Tag} {error : SyntaxError} :
    following pair tag = .error error ↔
      error = .invalidDelimiters tag.name tag.position ∧ Refused tag := by
  unfold following
  by_cases hs : tag.type = .switch
  · rw [if_pos hs, Delimiters.read_eq_error_iff]
    constructor
    · rintro ⟨rfl, hn⟩
      exact ⟨rfl, hs, hn⟩
    · rintro ⟨rfl, _, hn⟩
      exact ⟨rfl, hn⟩
  · rw [if_neg hs]
    constructor
    · intro h
      cases h
    · rintro ⟨_, h, _⟩
      exact absurd h hs

/-! ## Steps of the reader -/

namespace Cursor

/-- The segment that a faulty tag is, with all that follows it. -/
def faultSegment (cursor : Cursor) (before after : List Char) (error : SyntaxError) : Segment :=
  ⟨cursor.offset + before.length, cursor.delimiters.opening ++ after, cursor.delimiters,
    cursor.delimiters, .fault error⟩

def tagSegment (cursor : Cursor) (before : List Char) (bounded : Bounded) (next : Delimiters) :
    Segment :=
  ⟨cursor.offset + before.length, bounded.written, cursor.delimiters, next,
    .tag (bounded.tag (cursor.offset + before.length))⟩

def past (cursor : Cursor) (before : List Char) (bounded : Bounded) (next : Delimiters) : Cursor :=
  ⟨next, cursor.offset + before.length + bounded.written.length, bounded.rest⟩

section Steps

variable {cursor : Cursor} {before after : List Char}

theorem step_of_text (hn : ¬ cursor.delimiters.opening <:+: cursor.rest) :
    cursor.step = (cursor.textSegment cursor.rest, none) := by
  simp only [step, cut_eq_none_iff.2 hn]

theorem step_of_unterminated
    (hf : FirstAt cursor.delimiters.opening cursor.rest before after)
    (hb : bound? cursor.delimiters after = none) :
    cursor.step =
      (cursor.textSegment before ++
        [cursor.faultSegment before after (.unterminatedTag (cursor.offset + before.length))],
        none) := by
  simp only [step, cut_eq_some_iff.2 hf, hb]
  rfl

theorem step_of_refused {bounded : Bounded}
    (hf : FirstAt cursor.delimiters.opening cursor.rest before after)
    (hb : Bounds cursor.delimiters (cursor.delimiters.opening ++ after) bounded)
    (hr : Refused (bounded.tag (cursor.offset + before.length))) :
    cursor.step =
      (cursor.textSegment before ++
        [cursor.faultSegment before after
          (.invalidDelimiters (bounded.tag (cursor.offset + before.length)).name
            (bounded.tag (cursor.offset + before.length)).position)], none) := by
  have he : following cursor.delimiters (bounded.tag (cursor.offset + before.length)) = .error _ :=
    following_eq_error_iff.2 ⟨rfl, hr⟩
  simp only [Bounded.tag] at he
  simp only [step, cut_eq_some_iff.2 hf, bound?_eq_some_iff.2 hb, he]
  rfl

theorem step_of_tag {bounded : Bounded} {next : Delimiters}
    (hf : FirstAt cursor.delimiters.opening cursor.rest before after)
    (hb : Bounds cursor.delimiters (cursor.delimiters.opening ++ after) bounded)
    (hn : Follows cursor.delimiters (bounded.tag (cursor.offset + before.length)) next) :
    cursor.step =
      (cursor.textSegment before ++ [cursor.tagSegment before bounded next],
        some (cursor.past before bounded next)) := by
  have ho := following_eq_ok_iff.2 hn
  simp only [Bounded.tag] at ho
  simp only [step, cut_eq_some_iff.2 hf, bound?_eq_some_iff.2 hb, ho]
  rfl

end Steps

/-- What one step reads: a last text, a tag without an end or with delimiters that are refused, each
with the text before it, or a tag after which reading goes on. -/
inductive Stepped (cursor : Cursor) : List Segment × Option Cursor → Prop
  | text (hn : ¬ cursor.delimiters.opening <:+: cursor.rest) :
    Stepped cursor (cursor.textSegment cursor.rest, none)
  | unterminated {before after inside : List Char} {triple : Bool}
    (hf : FirstAt cursor.delimiters.opening cursor.rest before after)
    (ho : Opens cursor.delimiters (cursor.delimiters.opening ++ after) triple inside)
    (hn : ¬ closingOf cursor.delimiters triple <:+: inside) :
    Stepped cursor
      (cursor.textSegment before ++
        [cursor.faultSegment before after (.unterminatedTag (cursor.offset + before.length))],
        none)
  | refused {before after : List Char} {bounded : Bounded}
    (hf : FirstAt cursor.delimiters.opening cursor.rest before after)
    (hb : Bounds cursor.delimiters (cursor.delimiters.opening ++ after) bounded)
    (hr : Refused (bounded.tag (cursor.offset + before.length))) :
    Stepped cursor
      (cursor.textSegment before ++
        [cursor.faultSegment before after
          (.invalidDelimiters (bounded.tag (cursor.offset + before.length)).name
            (bounded.tag (cursor.offset + before.length)).position)], none)
  | tag {before after : List Char} {bounded : Bounded} {next : Delimiters}
    (hf : FirstAt cursor.delimiters.opening cursor.rest before after)
    (hb : Bounds cursor.delimiters (cursor.delimiters.opening ++ after) bounded)
    (hn : Follows cursor.delimiters (bounded.tag (cursor.offset + before.length)) next) :
    Stepped cursor
      (cursor.textSegment before ++ [cursor.tagSegment before bounded next],
        some (cursor.past before bounded next))

/-- **Every step is one of the four.** -/
theorem stepped (cursor : Cursor) : Stepped cursor cursor.step := by
  -- by what the step looks for in turn: a tag, its end, and the delimiters after it
  cases hc : cut cursor.delimiters.opening cursor.rest with
  | none =>
    have hn := cut_eq_none_iff.1 hc
    rw [step_of_text hn]
    exact .text hn
  | some found =>
    have hf := firstAt_of_cut hc
    cases hb : bound? cursor.delimiters found.2 with
    | none =>
      rw [step_of_unterminated hf hb]
      exact .unterminated hf (opens_isTriple _ _) (not_isInfix_of_bound? hb)
    | some bounded =>
      have hb := bound?_eq_some_iff.1 hb
      cases hn : following cursor.delimiters
          (bounded.tag (cursor.offset + found.1.length)) with
      | error error =>
        have hr := (following_eq_error_iff.1 hn).2
        rw [step_of_refused hf hb hr]
        exact .refused hf hb hr
      | ok next =>
        have hn := following_eq_ok_iff.1 hn
        rw [step_of_tag hf hb hn]
        exact .tag hf hb hn

/-! ## All segments -/

/-- The segments are those of a step and those of what is left after it. An empty rest is no exception:
no delimiter occurs in it. -/
theorem segments_eq (cursor : Cursor) :
    cursor.segments = cursor.step.1 ++ (cursor.step.2.map segments).getD [] := by
  rw [segments]
  split
  · next he =>
    have hrest : cursor.rest = [] := List.isEmpty_iff.1 he
    have hn : ¬ cursor.delimiters.opening <:+: cursor.rest := by
      rw [hrest, List.infix_nil]
      exact cursor.delimiters.opening_ne_nil
    rw [step_of_text hn, hrest]
    rfl
  · split
    · next read hstep => simp [hstep]
    · next read next hstep => simp [hstep]

theorem segments_of_step {cursor next : Cursor} {read : List Segment}
    (h : cursor.step = (read, some next)) : cursor.segments = read ++ next.segments := by
  rw [segments_eq, h]
  rfl

/-- Segments by the steps that read them. -/
theorem segments_induction {motive : Cursor → List Segment → Prop}
    (last : ∀ cursor read, Stepped cursor (read, none) → motive cursor read)
    (next : ∀ cursor read next, Stepped cursor (read, some next) →
      motive next next.segments → motive cursor (read ++ next.segments))
    (cursor : Cursor) : motive cursor cursor.segments := by
  have hs := cursor.stepped
  rw [segments_eq]
  match h : cursor.step with
  | (read, none) =>
    rw [h] at hs
    simpa using last cursor read hs
  | (read, some after) =>
    rw [h] at hs
    exact next cursor read after hs (segments_induction last next after)
termination_by cursor.rest.length
decreasing_by exact length_rest_lt_of_step h

end Cursor

end Stencil.Template

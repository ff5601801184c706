import Stencil.Proofs.Template.Lexing
import Stencil.Proofs.Template.Nesting

/-!
# Reading makes progress

The source itself says between what tags stand, so it is up to the source how far a step of the reader
gets. It always gets as far as both delimiters together at least, and these are never empty: what a tag
asks for is refused unless it is two words without an equal sign (`Follows.clean`). A step that refuses a
tag is the last one, and the delimiters that it was taken with stay in force
(`exists_mem_trail_of_refused`).

The delimiters that one reading ends with are those that the next one starts from. `reread` goes on like
this, and what is shown of a reading is shown of any number of them (`reread_bounded`).
-/

set_option autoImplicit false

namespace Stencil

open Text

namespace Delimiters

/-- Neither delimiter is empty, and there is no blank and no equal sign in either. -/
structure Clean (pair : Delimiters) : Prop where
  opening_ne_nil : pair.opening ≠ []
  closing_ne_nil : pair.closing ≠ []
  ink : Ink pair.opening ∧ Ink pair.closing
  plain : '=' ∉ pair.opening ∧ '=' ∉ pair.closing

theorem clean_braces : braces.Clean where
  opening_ne_nil := by decide
  closing_ne_nil := by decide
  ink := by simp [Ink, braces, isBlank]
  plain := by simp [braces]

theorem Spells.clean {text : List Char} {pair : Delimiters} (h : Spells text pair) : pair.Clean := by
  obtain ⟨_, _, _, _, _, _, _, _, ⟨hopening, ho⟩, ⟨hclosing, hc⟩⟩ := h
  exact ⟨pair.opening_ne_nil, pair.closing_ne_nil, ⟨hopening, hclosing⟩, ⟨ho, hc⟩⟩

/-- The number of characters in both delimiters. -/
def size (pair : Delimiters) : Nat := pair.opening.length + pair.closing.length

theorem two_le_size (pair : Delimiters) : 2 ≤ pair.size := by
  have ho := List.length_pos_iff.2 pair.opening_ne_nil
  have hc := List.length_pos_iff.2 pair.closing_ne_nil
  unfold size
  omega

end Delimiters

namespace Template

/-! ## A step of the reader -/

theorem Follows.clean {pair next : Delimiters} {tag : Tag} (h : Follows pair tag next)
    (hp : pair.Clean) : next.Clean := by
  cases h with
  | kept => exact hp
  | switched _ hs => exact hs.clean

/-- A tag is written with both delimiters at least. Three braces are more than two. -/
theorem Bounds.size_le {pair : Delimiters} {text : List Char} {bounded : Bounded}
    (h : Bounds pair text bounded) : pair.size ≤ bounded.written.length := by
  obtain ⟨inside, ho, _⟩ := h.inside
  have hopening : pair.opening.length ≤ (openingOf pair bounded.triple).length := by
    unfold openingOf
    split <;> simp
  have hclosing : pair.closing.length ≤ (closingOf pair bounded.triple).length := by
    unfold closingOf
    split
    · next htriple =>
      obtain ⟨rfl, _⟩ := ho.third.1 htriple
      decide
    · exact Nat.le_refl _
  rw [h.written, List.length_append, List.length_append, Delimiters.size]
  omega

/-- A tag that the reader found the end of, be it refused. -/
def Segment.isTag (segment : Segment) : Bool :=
  match segment.token with
  | .tag _ | .fault (.invalidDelimiters _ _) => true
  | _ => false

namespace Cursor

theorem not_isTag_textSegment (cursor : Cursor) (text : List Char) :
    (cursor.textSegment text).countP Segment.isTag = 0 := by
  unfold textSegment
  split <;> rfl

theorem delimiters_of_mem_textSegment {cursor : Cursor} {text : List Char} {segment : Segment}
    (h : segment ∈ cursor.textSegment text) :
    segment.delimiters = cursor.delimiters ∧ segment.next = cursor.delimiters := by
  unfold textSegment at h
  split at h
  · exact absurd h List.not_mem_nil
  · obtain rfl := List.mem_singleton.1 h
    exact ⟨rfl, rfl⟩

/-- **A step gets as far as both delimiters at least**, unless it is the last. -/
theorem Stepped.advances {cursor next : Cursor} {read : List Segment}
    (h : Stepped cursor (read, some next)) :
    cursor.offset + cursor.delimiters.size ≤ next.offset ∧
      next.rest.length + cursor.delimiters.size ≤ cursor.rest.length := by
  cases h with
  | tag hf hb hn =>
    have hsize := hb.size_le
    have hrest := congrArg List.length hf.eq
    have hwritten := congrArg List.length hb.eq
    simp only [List.length_append] at hrest hwritten
    simp only [past]
    omega

/-- All that a step reads is read with the delimiters from before it, and the last of it has the delimiters
after it. -/
theorem Stepped.delimiters {cursor : Cursor} {read : List Segment} {next : Option Cursor}
    (h : Stepped cursor (read, next)) {segment : Segment} (hm : segment ∈ read) :
    segment.delimiters = cursor.delimiters ∧
      (segment.next = cursor.delimiters ∨ ∃ after ∈ next, segment.next = after.delimiters) := by
  cases h with
  | text =>
    obtain ⟨hd, hn⟩ := delimiters_of_mem_textSegment hm
    exact ⟨hd, .inl hn⟩
  | unterminated | refused =>
    rcases List.mem_append.1 hm with hm | hm
    · obtain ⟨hd, hn⟩ := delimiters_of_mem_textSegment hm
      exact ⟨hd, .inl hn⟩
    · obtain rfl := List.mem_singleton.1 hm
      exact ⟨rfl, .inl rfl⟩
  | tag =>
    rcases List.mem_append.1 hm with hm | hm
    · obtain ⟨hd, hn⟩ := delimiters_of_mem_textSegment hm
      exact ⟨hd, .inl hn⟩
    -- the tag is the last segment of its step, and it is the only one that can switch
    · obtain rfl := List.mem_singleton.1 hm
      exact ⟨rfl, .inr ⟨_, rfl, rfl⟩⟩

theorem Stepped.clean {cursor next : Cursor} {read : List Segment}
    (h : Stepped cursor (read, some next)) (hc : cursor.delimiters.Clean) :
    next.delimiters.Clean := by
  cases h with
  | tag _ _ hn => exact hn.clean hc

/-! ## All steps -/

/-- The places that the steps start from. Reading may end before it comes to the last of them, at a section
end that closes nothing. -/
def trail (cursor : Cursor) : List Cursor :=
  if cursor.rest.isEmpty then []
  else
    match _h : cursor.step with
    | (_, none) => [cursor]
    | (_, some next) => cursor :: next.trail
termination_by cursor.rest.length
decreasing_by exact length_rest_lt_of_step _h

theorem stepped_of_eq {cursor : Cursor} {result : List Segment × Option Cursor}
    (h : cursor.step = result) : Stepped cursor result := h ▸ cursor.stepped

theorem stepped_of_next {cursor next : Cursor} (h : cursor.step.2 = some next) :
    Stepped cursor (cursor.step.1, some next) :=
  stepped_of_eq (Prod.ext rfl h)

/-- The trail by the steps that it is made of. -/
theorem trail_induction {motive : Cursor → List Cursor → Prop}
    (done : ∀ cursor, cursor.rest = [] → motive cursor [])
    (last : ∀ cursor read, cursor.step = (read, none) → motive cursor [cursor])
    (next : ∀ cursor read next, cursor.step = (read, some next) → motive next next.trail →
      motive cursor (cursor :: next.trail))
    (cursor : Cursor) : motive cursor cursor.trail := by
  rw [trail]
  split
  · next hempty => exact done cursor (List.isEmpty_iff.1 hempty)
  · split
    · next read hstep => exact last cursor read hstep
    · next read after hstep =>
      exact next cursor read after hstep (trail_induction done last next after)
termination_by cursor.rest.length
decreasing_by exact length_rest_lt_of_step ‹_›

/-- The segments are what is read in the steps from these places. -/
theorem segments_eq_flatMap (cursor : Cursor) :
    cursor.segments = cursor.trail.flatMap fun place => place.step.1 := by
  refine trail_induction
    (motive := fun cursor trail => cursor.segments = trail.flatMap fun place => place.step.1)
    (fun cursor hrest => ?_) (fun cursor read hstep => ?_) (fun cursor read next hstep ih => ?_)
    cursor
  · rw [segments, hrest]
    rfl
  · rw [segments_eq, hstep, List.flatMap_singleton, hstep]
    exact List.append_nil read
  · rw [segments_of_step hstep, ih, List.flatMap_cons, hstep]

/-- The delimiters stay clean all the way. -/
theorem clean_of_mem_trail (cursor : Cursor) (hc : cursor.delimiters.Clean) :
    ∀ place ∈ cursor.trail, place.delimiters.Clean := by
  refine trail_induction
    (motive := fun cursor trail => cursor.delimiters.Clean →
      ∀ place ∈ trail, place.delimiters.Clean)
    (fun cursor _ _ => List.forall_mem_nil _)
    (fun cursor read _ hc => List.forall_mem_singleton.2 hc)
    (fun cursor read next hstep ih hc => ?_) cursor hc
  exact List.forall_mem_cons.2 ⟨hc, ih ((stepped_of_eq hstep).clean hc)⟩

/-- Each step but the last leaves two characters less. -/
theorem length_trail_le (cursor : Cursor) : 2 * cursor.trail.length ≤ cursor.rest.length + 2 := by
  refine trail_induction
    (motive := fun cursor trail => 2 * trail.length ≤ cursor.rest.length + 2)
    (fun cursor _ => ?_) (fun cursor read _ => ?_) (fun cursor read next hstep ih => ?_) cursor
  · exact Nat.zero_le _
  · exact Nat.le_add_left _ _
  · have hrest := (stepped_of_eq hstep).advances.2
    have htwo := cursor.delimiters.two_le_size
    rw [List.length_cons]
    omega

/-- A tag has two characters at least. -/
theorem countP_isTag_le (cursor : Cursor) :
    2 * cursor.segments.countP Segment.isTag ≤ cursor.rest.length := by
  refine Cursor.segments_induction
    (motive := fun cursor segments => 2 * segments.countP Segment.isTag ≤ cursor.rest.length)
    (fun cursor read hs => ?_) (fun cursor read next hs ih => ?_) cursor
  · cases hs with
    | text =>
      rw [not_isTag_textSegment]
      exact Nat.zero_le _
    | unterminated =>
      rw [List.countP_append, not_isTag_textSegment]
      exact Nat.zero_le _
    -- a tag that is refused counts as well, and it takes up both its delimiters
    | @refused before after bounded hf hb hr =>
      have hrest := congrArg List.length hf.eq
      have hwritten := congrArg List.length hb.eq
      have hsize := hb.size_le
      have htwo := cursor.delimiters.two_le_size
      have hone : [cursor.faultSegment before after (.invalidDelimiters
          (bounded.tag (cursor.offset + before.length)).name
          (bounded.tag (cursor.offset + before.length)).position)].countP Segment.isTag = 1 := rfl
      rw [List.countP_append, not_isTag_textSegment, hone]
      simp only [List.length_append] at hrest hwritten
      omega
  · have hrest := hs.advances.2
    have htwo := cursor.delimiters.two_le_size
    cases hs with
    | @tag before after bounded following hf hb hn =>
      have hone : [cursor.tagSegment before bounded following].countP Segment.isTag = 1 := rfl
      rw [List.countP_append, List.countP_append, not_isTag_textSegment, hone]
      omega

end Cursor

/-! ## Where reading ends -/

theorem exists_mem_trail {pair : Delimiters} {source : List Char} {segment : Segment}
    (h : segment ∈ segments pair source) :
    ∃ place ∈ Cursor.trail ⟨pair, 0, source⟩, segment ∈ place.step.1 := by
  rw [segments, Cursor.segments_eq_flatMap] at h
  exact List.mem_flatMap.1 h

theorem clean_of_mem_segments {pair : Delimiters} (hp : pair.Clean) {source : List Char}
    {segment : Segment} (h : segment ∈ segments pair source) :
    segment.delimiters.Clean ∧ segment.next.Clean := by
  obtain ⟨place, hplace, hm⟩ := exists_mem_trail h
  have hclean := Cursor.clean_of_mem_trail ⟨pair, 0, source⟩ hp place hplace
  obtain ⟨hd, hn⟩ := place.stepped.delimiters hm
  refine ⟨hd ▸ hclean, ?_⟩
  rcases hn with hn | ⟨after, hafter, hn⟩
  · exact hn ▸ hclean
  · exact hn ▸ (Cursor.stepped_of_next hafter).clean hclean

/-- **The delimiters that reading ends with are clean** if those that it starts from are. -/
theorem clean_readFrom {pair : Delimiters} (hp : pair.Clean) (source : String) :
    (readFrom pair source).delimiters.Clean := by
  rcases readFrom_cases pair source with ⟨stop, error, hn, hd, _⟩ | ⟨drafts, _, hd, _⟩
  · rw [hd]
    exact (clean_of_mem_segments hp (mem_of_nest_error hn).1).1
  · rw [hd, delimitersAfter]
    cases hlast : (segments pair source.toList).getLast? with
    | none => exact hp
    | some segment => exact (clean_of_mem_segments hp (List.mem_of_getLast? hlast)).2

/-- When a tag is refused, the delimiters stay as they were before the step that came to it. -/
theorem exists_mem_trail_of_refused {pair : Delimiters} {source text : String} {position : Int}
    (h : (readFrom pair source).outcome = .error (.invalidDelimiters text position)) :
    ∃ place ∈ Cursor.trail ⟨pair, 0, source.toList⟩,
      (∃ segment ∈ place.step.1, segment.token = .fault (.invalidDelimiters text position)) ∧
        (readFrom pair source).delimiters = place.delimiters := by
  rcases readFrom_cases pair source with ⟨stop, error, hn, hd, ho⟩ | ⟨drafts, _, _, ho⟩
  · rw [ho] at h
    cases h
    -- nesting has stopped at a segment that is faulty itself, since no section end is refused like this
    obtain ⟨hm, htoken⟩ := mem_of_nest_error hn
    obtain ⟨place, hplace, hread⟩ := exists_mem_trail hm
    refine ⟨place, hplace, ⟨stop, hread, htoken.resolve_right nofun⟩, ?_⟩
    rw [hd, (place.stepped.delimiters hread).1]
  · rw [ho] at h
    rcases close_cases source drafts with ⟨_, hclose⟩ | ⟨tag, hclose⟩
    · rw [hclose] at h
      cases h
    · rw [hclose] at h
      cases h

/-! ## Reading again and again -/

/-- The delimiters in force when a source has been read so many times, each time with those that the time
before ended with. -/
def reread (source : String) : Nat → Delimiters
  | 0 => .braces
  | count + 1 => (readFrom (reread source count) source).delimiters

theorem clean_reread (source : String) (count : Nat) : (reread source count).Clean := by
  induction count with
  | zero => exact Delimiters.clean_braces
  | succ count ih => exact clean_readFrom ih source

/-- **However often a source is read, the delimiters are clean at all times and each step makes
progress.** A tag that is refused leaves the delimiters as they were. A step that another one can follow gets
as far as both delimiters at least, so there are not more steps than one for every two characters and one
besides, and not more tags than one for every two characters. -/
theorem reread_bounded (source : String) (count : Nat) :
    let pair := reread source count
    let trail := Cursor.trail ⟨pair, 0, source.toList⟩
    pair.Clean ∧
    (∀ place ∈ trail, place.delimiters.Clean ∧ 2 ≤ place.delimiters.size ∧
      ∀ next, place.step.2 = some next →
        next.delimiters.Clean ∧ place.offset + place.delimiters.size ≤ next.offset) ∧
    (∀ text position,
      (readFrom pair source).outcome = .error (.invalidDelimiters text position) →
      ∃ place ∈ trail,
        (∃ segment ∈ place.step.1, segment.token = .fault (.invalidDelimiters text position)) ∧
          reread source (count + 1) = place.delimiters) ∧
    segments pair source.toList = trail.flatMap (fun place => place.step.1) ∧
    trail.length ≤ source.length / 2 + 1 ∧
    (segments pair source.toList).countP Segment.isTag ≤ source.length / 2 := by
  intro pair trail
  have hclean : pair.Clean := clean_reread source count
  refine ⟨hclean, fun place hm => ?_, fun text position h => exists_mem_trail_of_refused h,
    Cursor.segments_eq_flatMap _, ?_, ?_⟩
  · have hplace := Cursor.clean_of_mem_trail ⟨pair, 0, source.toList⟩ hclean place hm
    refine ⟨hplace, place.delimiters.two_le_size, fun next hnext => ?_⟩
    have hs := Cursor.stepped_of_next hnext
    exact ⟨hs.clean hplace, hs.advances.1⟩
  · have hle : 2 * trail.length ≤ source.toList.length + 2 :=
      Cursor.length_trail_le ⟨pair, 0, source.toList⟩
    rw [String.length_toList] at hle
    omega
  · have hle : 2 * (segments pair source.toList).countP Segment.isTag ≤ source.toList.length :=
      Cursor.countP_isTag_le ⟨pair, 0, source.toList⟩
    rw [String.length_toList] at hle
    omega

/-- A switch of the delimiters, and a second one, written with these, that is refused. -/
def refusedSource : String := "{{=x y=}}x=c=y"

def letters : Delimiters := ⟨['x'], ['y'], by simp, by simp⟩

/-- The next reading starts from the delimiters of the first switch. -/
theorem reread_bounded_refusedSource :
    (readFrom (reread refusedSource 0) refusedSource).outcome =
        .error (.invalidDelimiters "c" 9) ∧
      (∃ place ∈ Cursor.trail ⟨reread refusedSource 0, 0, refusedSource.toList⟩,
        (∃ segment ∈ place.step.1, segment.token = .fault (.invalidDelimiters "c" 9)) ∧
          reread refusedSource 1 = place.delimiters) ∧
      reread refusedSource 1 = letters ∧ (reread refusedSource 1).Clean := by
  have first : Cursor.step ⟨.braces, 0, refusedSource.toList⟩ =
      ([⟨0, "{{=x y=}}".toList, .braces, letters, .tag ⟨"x y", .switch, 0⟩⟩],
        some ⟨letters, 9, "x=c=y".toList⟩) := rfl
  have hread : segments .braces refusedSource.toList =
      [⟨0, "{{=x y=}}".toList, .braces, letters, .tag ⟨"x y", .switch, 0⟩⟩,
        ⟨9, "x=c=y".toList, letters, letters, .fault (.invalidDelimiters "c" 9)⟩] := by
    rw [segments, Cursor.segments_of_step first, Cursor.segments_eq]
    rfl
  have hrefused : (readFrom .braces refusedSource).outcome = .error (.invalidDelimiters "c" 9) := by
    simp only [readFrom, hread]
    rfl
  have hnext : reread refusedSource 1 = letters := by
    simp only [reread, readFrom, hread]
    rfl
  exact ⟨hrefused, (reread_bounded refusedSource 0).2.2.1 _ _ hrefused, hnext,
    (reread_bounded refusedSource 1).1⟩

end Template

end Stencil

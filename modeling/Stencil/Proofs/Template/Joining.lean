import Stencil.Proofs.Template.Coverage
import Stencil.Proofs.Template.Moving
import Stencil.Proofs.Template.Writing

/-!
# A source in two parts

A source can be cut after a tag and read in two parts, the second one from the delimiters that the first
one ends with. It does not matter what the second part starts with: the reader ended the tag where it
was closed first, and more text does not change what is first (`Cursor.segments_followed`). Then nothing
of the first part is still open, provided that it is a template by itself, and the drafts of the second
part go on top of its drafts (`nest_append_of_nests`, `nest_atop`). All positions of the second part are
counted from where it starts (`Cursor.segments_moved`).

So the document of two templates one after the other is their documents one after the other, and an
error is the error of the second (`readFrom_joined`).
-/

set_option autoImplicit false

namespace Stencil

open Text

namespace Template

open Draft

/-! ## Reading what more text follows -/

namespace Cursor

/-- The same place, with more text to read. -/
def followed (cursor : Cursor) (more : List Char) : Cursor :=
  { cursor with rest := cursor.rest ++ more }

/-- Whatever else follows, a tag that is read is read the same. -/
theorem step_followed {cursor next : Cursor} {read : List Segment}
    (h : Stepped cursor (read, some next)) (more : List Char) :
    (cursor.followed more).step = (read, some (next.followed more)) := by
  cases h with
  | @tag before after bounded following hf hb hn =>
    have hb := hb.followed more
    rw [List.append_assoc] at hb
    exact @step_of_tag (cursor.followed more) _ _ _ _ (hf.followed more) hb hn

end Cursor

/-- The last of these segments is a tag, if there is any. -/
def EndsWithTag (segments : List Segment) : Prop :=
  ∀ segment ∈ segments.getLast?, ∃ tag, segment.token = .tag tag

theorem EndsWithTag.of_append {segments more : List Segment} (h : EndsWithTag (segments ++ more)) :
    EndsWithTag more := by
  intro segment hl
  refine h segment ?_
  rw [List.getLast?_append, Option.mem_def.1 hl]
  rfl

theorem not_endsWithTag {segments : List Segment} {segment : Segment}
    (h : ∀ tag, segment.token ≠ .tag tag) : ¬ EndsWithTag (segments ++ [segment]) := by
  intro he
  obtain ⟨tag, ht⟩ := he segment (by simp)
  exact h tag ht

theorem delimitersAfter_append (pair : Delimiters) (segments more : List Segment) :
    delimitersAfter pair (segments ++ more) =
      delimitersAfter (delimitersAfter pair segments) more := by
  rw [delimitersAfter, delimitersAfter, delimitersAfter, List.getLast?_append]
  cases more.getLast? <;> rfl

/-- A step that is not the last ends where the next one starts. -/
theorem Cursor.Stepped.ends {cursor next : Cursor} {read : List Segment}
    (h : Stepped cursor (read, some next)) :
    cursor.offset + cursor.rest.length = next.offset + next.rest.length ∧
      delimitersAfter cursor.delimiters read = next.delimiters := by
  cases h with
  | @tag before after bounded following hf hb hn =>
    have hrest : cursor.rest = before ++ (bounded.written ++ bounded.rest) := by
      rw [hf.eq, List.append_assoc, hb.eq]
    refine ⟨?_, ?_⟩
    · rw [hrest, List.length_append, List.length_append, Cursor.past]
      dsimp only
      omega
    · rw [delimitersAfter_append]
      rfl

/-- **What more text follows is read first, and then the rest**, if it ends with a tag. -/
theorem Cursor.segments_followed (cursor : Cursor) (he : EndsWithTag cursor.segments)
    (more : List Char) :
    (cursor.followed more).segments = cursor.segments ++
      Cursor.segments ⟨delimitersAfter cursor.delimiters cursor.segments,
        cursor.offset + cursor.rest.length, more⟩ := by
  refine Cursor.segments_induction
    (motive := fun cursor segments => EndsWithTag segments →
      (cursor.followed more).segments = segments ++
        Cursor.segments ⟨delimitersAfter cursor.delimiters segments,
          cursor.offset + cursor.rest.length, more⟩)
    (fun cursor read hs he => ?_) (fun cursor read next hs ih he => ?_) cursor he
  · cases hs with
    | text hn =>
      -- a text would be the last segment, so there is none
      unfold Cursor.textSegment at he ⊢
      split at he
      · next hempty =>
        rw [Cursor.followed, List.isEmpty_iff.1 hempty]
        rfl
      · exact absurd he (@not_endsWithTag [] _ nofun)
    | unterminated hf ho hn => exact absurd he (not_endsWithTag nofun)
    | refused hf hb hr => exact absurd he (not_endsWithTag nofun)
  · rw [Cursor.segments_of_step (step_followed hs more), ih he.of_append, delimitersAfter_append,
      hs.ends.1, hs.ends.2, List.append_assoc]

/-! ## Reading from another offset -/

def Token.moved (f : Int → Int) : Token → Token
  | .text content => .text content
  | .tag named => .tag (named.moved f)
  | .fault error => .fault (error.moved f)

/-- The segment with its place counted from so far before. -/
def Segment.moved (count : Nat) (segment : Segment) : Segment :=
  { segment with
    start := segment.start + count
    token := segment.token.moved (· + count) }

theorem Segment.entry_moved (count : Nat) (segment : Segment) :
    (segment.moved count).entry =
      movedResult (· + (count : Int)) (Label.moved (· + (count : Int))) segment.entry := by
  obtain ⟨start, written, pair, next, token⟩ := segment
  cases token with
  | text content =>
    rw [Segment.moved, Segment.entry]
    simp only [Token.moved, Segment.entry, Int.natCast_add]
    rfl
  | tag tag => rfl
  | fault error => rfl

theorem delimitersAfter_moved (count : Nat) (pair : Delimiters) (segments : List Segment) :
    delimitersAfter pair (segments.map (Segment.moved count)) = delimitersAfter pair segments := by
  rw [delimitersAfter, delimitersAfter, List.getLast?_map, Option.map_map]
  rfl

/-- Where a tag stands plays no part in what it is. -/
theorem classify_moved (f : Int → Int) (contents : List Char) (triple : Bool) (position : Int) :
    Tag.classify contents triple (f position) = (Tag.classify contents triple position).moved f := by
  unfold Tag.classify
  split
  · rfl
  · split
    · rfl
    · split
      · rfl
      · split <;> rfl

theorem Bounded.tag_moved (bounded : Bounded) (start count : Nat) :
    bounded.tag (start + count) = (bounded.tag start).moved (· + (count : Int)) := by
  rw [Bounded.tag, Bounded.tag, Int.natCast_add]
  exact classify_moved (· + (count : Int)) _ _ _

theorem Follows.moved {pair next : Delimiters} {tag : Tag} (h : Follows pair tag next)
    (f : Int → Int) : Follows pair (tag.moved f) next := by
  cases h with
  | kept hn => exact .kept hn
  | switched hs hspells => exact .switched hs hspells

namespace Cursor

def moved (count : Nat) (cursor : Cursor) : Cursor :=
  { cursor with offset := cursor.offset + count }

theorem textSegment_moved (count : Nat) (cursor : Cursor) (text : List Char) :
    (cursor.moved count).textSegment text =
      (cursor.textSegment text).map (Segment.moved count) := by
  unfold textSegment
  split <;> rfl

theorem start_moved (count : Nat) (cursor : Cursor) (before : List Char) :
    (cursor.moved count).offset + before.length = cursor.offset + before.length + count :=
  Nat.add_right_comm _ _ _

theorem position_moved (count : Nat) (cursor : Cursor) (before : List Char) :
    ((cursor.moved count).offset : Int) + before.length =
      cursor.offset + before.length + (count : Int) := by
  rw [← Int.natCast_add, start_moved, Int.natCast_add, Int.natCast_add]

theorem faultSegment_moved (count : Nat) (cursor : Cursor) (before after : List Char)
    (error : SyntaxError) :
    (cursor.moved count).faultSegment before after (error.moved (· + (count : Int))) =
      (cursor.faultSegment before after error).moved count := by
  rw [faultSegment, start_moved]
  rfl

theorem tagSegment_moved (count : Nat) (cursor : Cursor) (before : List Char) (bounded : Bounded)
    (next : Delimiters) :
    (cursor.moved count).tagSegment before bounded next =
      (cursor.tagSegment before bounded next).moved count := by
  rw [tagSegment, start_moved, Bounded.tag_moved]
  rfl

theorem past_moved (count : Nat) (cursor : Cursor) (before : List Char) (bounded : Bounded)
    (next : Delimiters) :
    (cursor.moved count).past before bounded next = (cursor.past before bounded next).moved count := by
  rw [past, start_moved, Nat.add_right_comm]
  rfl

/-- What is done to the offset is done to all that a step reads. -/
theorem step_moved (count : Nat) {cursor : Cursor} {read : List Segment} {next : Option Cursor}
    (h : Stepped cursor (read, next)) :
    (cursor.moved count).step = (read.map (Segment.moved count), next.map (moved count)) := by
  -- a step looks at the delimiters and at the rest, and the offset goes into positions only
  cases h with
  | text hn =>
    rw [@step_of_text (cursor.moved count) hn, textSegment_moved]
    rfl
  | @unterminated before after inside triple hf ho hn =>
    rw [@step_of_unterminated (cursor.moved count) _ _ hf (bound?_eq_none ho hn),
      textSegment_moved, position_moved, List.map_append]
    exact congrArg (fun fault => (_ ++ [fault], none))
      (faultSegment_moved count cursor before after (.unterminatedTag _))
  | @refused before after bounded hf hb hr =>
    have hmoved : Refused (bounded.tag ((cursor.moved count).offset + before.length)) := by
      rw [start_moved, Bounded.tag_moved]
      exact ⟨hr.switches, hr.spells⟩
    rw [@step_of_refused (cursor.moved count) _ _ _ hf hb hmoved, textSegment_moved, start_moved,
      Bounded.tag_moved, List.map_append]
    exact congrArg (fun fault => (_ ++ [fault], none))
      (faultSegment_moved count cursor before after (.invalidDelimiters _ _))
  | @tag before after bounded following hf hb hn =>
    have hmoved : Follows (cursor.moved count).delimiters
        (bounded.tag ((cursor.moved count).offset + before.length)) following := by
      rw [start_moved, Bounded.tag_moved]
      exact hn.moved _
    rw [@step_of_tag (cursor.moved count) _ _ _ _ hf hb hmoved, textSegment_moved,
      tagSegment_moved, past_moved, List.map_append]
    rfl

theorem segments_moved (count : Nat) (cursor : Cursor) :
    (cursor.moved count).segments = cursor.segments.map (Segment.moved count) := by
  refine Cursor.segments_induction
    (motive := fun cursor segments =>
      (cursor.moved count).segments = segments.map (Segment.moved count))
    (fun cursor read hs => ?_) (fun cursor read next hs ih => ?_) cursor
  · rw [segments_eq, step_moved count hs]
    exact List.append_nil _
  · rw [segments_of_step (step_moved count hs), ih, List.map_append]

end Cursor

/-! ## Nesting on top of what is nested already -/

theorem eq_nil_of_unclosedIn? {openLevels : List Level} {body : List Draft}
    (h : unclosedIn? (abandon openLevels body) = none) : openLevels = [] := by
  cases openLevels with
  | nil => rfl
  | cons level outer =>
    rw [unclosedIn?_abandon, unclosedAround?, partner?_nil, Option.or_eq_none_iff,
      Option.or_eq_none_iff] at h
    cases h.1.2

/-- When all sections are closed, what follows is nested on the outermost level again. -/
theorem nest_append_of_nests {openLevels : List Level} {body drafts : List Draft}
    {segments : List Segment} (h : Nests openLevels body segments drafts)
    (hc : unclosedIn? drafts = none) (more : List Segment) :
    nest openLevels body (segments ++ more) = nest [] drafts.reverse more := by
  induction h with
  | done =>
    rw [eq_nil_of_unclosedIn? hc, abandon, List.reverse_reverse]
    rfl
  | text ht _ ih => rw [List.cons_append, nest_cons_of_text ht, ih hc]
  | leaf ht hb he _ ih => rw [List.cons_append, nest_cons_of_other ht hb he, ih hc]
  | opened ht hb _ ih => rw [List.cons_append, nest_cons_of_begin ht hb, ih hc]
  | closed ht he _ ih => rw [List.cons_append, nest_cons_of_end ht he, ih hc]

/-- Open sections and the body of the innermost, over these drafts that came before all of it. Drafts are
listed latest first. -/
def atop (base : List Draft) : List Level → List Draft → List Level × List Draft
  | [], body => ([], body ++ base)
  | level :: outer, body =>
    (⟨level.opening, (atop base outer level.earlier).2⟩ :: (atop base outer level.earlier).1, body)

theorem atop_cons (base : List Draft) (openLevels : List Level) (draft : Draft)
    (body : List Draft) :
    atop base openLevels (draft :: body) =
      ((atop base openLevels body).1, draft :: (atop base openLevels body).2) := by
  cases openLevels <;> rfl

theorem abandon_atop (base : List Draft) (openLevels : List Level) (body : List Draft) :
    abandon (atop base openLevels body).1 (atop base openLevels body).2 =
      base.reverse ++ abandon openLevels body := by
  induction openLevels generalizing body with
  | nil => exact List.reverse_append
  | cons level outer ih =>
    rw [abandon, ← ih, atop_cons]
    rfl

/-- **What is nested over drafts comes after them.** -/
theorem nest_atop (base : List Draft) (openLevels : List Level) (body : List Draft)
    (segments : List Segment) :
    nest (atop base openLevels body).1 (atop base openLevels body).2 segments =
      (nest openLevels body segments).map (base.reverse ++ ·) := by
  induction segments generalizing openLevels body with
  | nil => exact congrArg Except.ok (abandon_atop base openLevels body)
  | cons segment rest ih =>
    cases ht : segment.token with
    | fault error =>
      rw [nest_cons_of_fault ht, nest_cons_of_fault ht]
      rfl
    | text content =>
      rw [nest_cons_of_text ht, nest_cons_of_text ht, ← ih, atop_cons]
    | tag tag =>
      cases hb : tag.isSectionBegin with
      | true =>
        rw [nest_cons_of_begin ht hb, nest_cons_of_begin ht hb, ← ih]
        rfl
      | false =>
        cases he : tag.isSectionEnd with
        | false =>
          rw [nest_cons_of_other ht hb he, nest_cons_of_other ht hb he, ← ih, atop_cons]
        | true =>
          cases openLevels with
          | nil =>
            rw [atop, nest_nil_cons_of_end ht he, nest_nil_cons_of_end ht he]
            rfl
          | cons level outer =>
            rw [atop, nest_cons_of_end ht he, nest_cons_of_end ht he, ← ih, atop_cons]

/-- The nodes of segments that follow others come after the nodes of those. -/
theorem assemble_append {segments : List Segment} {nodes : List Node}
    (h : assemble (segments.map Segment.entry) = .ok nodes) (more : List Segment) :
    assemble ((segments ++ more).map Segment.entry) =
      (assemble (more.map Segment.entry)).map (nodes ++ ·) := by
  rw [assemble, ← nest_eq_nestEntries] at h ⊢
  rw [assemble, ← nest_eq_nestEntries]
  cases hn : nest [] [] segments with
  | error stop =>
    rw [hn] at h
    cases h
  | ok drafts =>
    simp only [hn, mapError_ok] at h
    cases hc : unclosedIn? drafts with
    | some tag =>
      rw [hc] at h
      cases h
    | none =>
      rw [hc] at h
      cases h
      -- no section is left open, so the rest is nested at the outermost level, over what is there
      -- already
      have hover : nest [] drafts.reverse more = (nest [] [] more).map (drafts ++ ·) := by
        have h := nest_atop drafts.reverse [] [] more
        rwa [atop, List.nil_append, List.reverse_reverse] at h
      rw [nest_append_of_nests (nests_of_nest hn) hc, hover]
      cases nest [] [] more with
      | error stop => rfl
      | ok others =>
        simp only [Except.map, mapError_ok, unclosedIn?_append, hc, Option.none_or, toNodes_append]
        cases unclosedIn? others <;> rfl

/-! ## Templates one after the other -/

theorem delimiters_readFrom {pair : Delimiters} {source : String} {document : Document}
    (h : (readFrom pair source).outcome = .ok document) :
    (readFrom pair source).delimiters = delimitersAfter pair (segments pair source.toList) := by
  rcases readFrom_cases pair source with ⟨stop, error, _, _, ho⟩ | ⟨drafts, _, hd, _⟩
  · rw [ho] at h
    cases h
  · exact hd

/-- A source that goes on after a tag has the segments of the first part, and then those of the second,
counted from the end of the first. -/
theorem segments_append {pair : Delimiters} {source : String}
    (he : EndsWithTag (segments pair source.toList)) (more : String) :
    segments pair (source ++ more).toList = segments pair source.toList ++
      (segments (delimitersAfter pair (segments pair source.toList)) more.toList).map
        (Segment.moved source.length) := by
  rw [String.toList_append, ← String.length_toList]
  refine (Cursor.segments_followed ⟨pair, 0, source.toList⟩ he more.toList).trans ?_
  exact congrArg (segments pair source.toList ++ ·)
    (Cursor.segments_moved source.toList.length ⟨_, 0, more.toList⟩)

/-- **The document of two templates one after the other is their documents one after the other.** The
second is read from the delimiters that the first ends with, and its defects are the only ones. -/
theorem readFrom_joined {pair : Delimiters} {source : String} {document : Document}
    (h : (readFrom pair source).outcome = .ok document)
    (he : EndsWithTag (segments pair source.toList)) (more : String) :
    match (readFrom (readFrom pair source).delimiters more).outcome with
    | .ok other =>
      (readFrom pair (source ++ more)).outcome =
          .ok ⟨document.nodes ++ Node.movedAll (· + (source.length : Int)) other.nodes,
            source ++ more⟩ ∧
        (readFrom pair (source ++ more)).delimiters =
          (readFrom (readFrom pair source).delimiters more).delimiters
    | .error error =>
      (readFrom pair (source ++ more)).outcome =
        .error (error.moved (· + (source.length : Int))) := by
  rw [delimiters_readFrom h]
  generalize hnext : delimitersAfter pair (segments pair source.toList) = next
  have hsegments := segments_append he more
  rw [hnext] at hsegments
  -- what the two parts make up, in terms of what the second makes up by itself
  have houtcome : (readFrom pair (source ++ more)).outcome =
      ((movedResult (· + (source.length : Int)) (Node.movedAll (· + (source.length : Int)))
        (assemble ((segments next more.toList).map Segment.entry))).map
          (document.nodes ++ ·)).map (⟨·, source ++ more⟩) := by
    have hentries : ((segments next more.toList).map (Segment.moved source.length)).map
        Segment.entry = ((segments next more.toList).map Segment.entry).map
          (movedResult (· + (source.length : Int)) (Label.moved (· + (source.length : Int)))) := by
      rw [List.map_map, List.map_map]
      exact List.map_congr_left fun segment _ => segment.entry_moved source.length
    rw [outcome_readFrom, hsegments, assemble_append (assemble_of_readFrom h), hentries,
      assemble_moved]
  cases hs : (readFrom next more).outcome with
  | error error =>
    dsimp only
    rw [outcome_readFrom] at hs
    rw [houtcome]
    cases ha : assemble ((segments next more.toList).map Segment.entry) with
    | error first =>
      rw [ha] at hs
      cases hs
      rfl
    | ok nodes =>
      rw [ha] at hs
      cases hs
  | ok other =>
    have hwhole : (readFrom pair (source ++ more)).outcome =
        .ok ⟨document.nodes ++ Node.movedAll (· + (source.length : Int)) other.nodes,
          source ++ more⟩ := by
      rw [houtcome, assemble_of_readFrom hs]
      rfl
    refine ⟨hwhole, ?_⟩
    rw [delimiters_readFrom hwhole, delimiters_readFrom hs, hsegments, delimitersAfter_append, hnext,
      delimitersAfter_moved]

/-- After the switch, what would be a tag between braces is part of a text, and so is an end delimiter
right behind the first part. -/
theorem readFrom_joined_switchedTemplate :
    EndsWithTag (segments .braces switchedTemplate.source.toList) ∧
      (readFrom .braces (switchedTemplate.source ++ "%>{{c}}<%d%>")).outcome =
        .ok ⟨switchedTemplate.nodes ++
            [⟨.text "%>{{c}}" 24, []⟩, ⟨.tag ⟨"d", .escaped, 31⟩, []⟩],
          switchedTemplate.source ++ "%>{{c}}<%d%>"⟩ := by
  have hdelimiters : (readFrom .braces switchedTemplate.source).delimiters = percents := by
    simp only [readFrom, segments_switchedTemplate]
    rfl
  have he : EndsWithTag (segments .braces switchedTemplate.source.toList) := by
    rw [segments_switchedTemplate]
    rintro segment ⟨⟩
    exact ⟨_, rfl⟩
  have hmore : (readFrom percents "%>{{c}}<%d%>").outcome =
      .ok ⟨[⟨.text "%>{{c}}" 0, []⟩, ⟨.tag ⟨"d", .escaped, 7⟩, []⟩], "%>{{c}}<%d%>"⟩ := by
    have hstep : Cursor.step ⟨percents, 0, "%>{{c}}<%d%>".toList⟩ =
        ([⟨0, "%>{{c}}".toList, percents, percents, .text "%>{{c}}".toList⟩,
          ⟨7, "<%d%>".toList, percents, percents, .tag ⟨"d", .escaped, 7⟩⟩],
          some ⟨percents, 12, []⟩) := rfl
    simp only [readFrom, segments, Cursor.segments_of_step hstep, segments_nil]
    rfl
  have h := readFrom_joined parse_switchedTemplate he "%>{{c}}<%d%>"
  rw [hdelimiters, hmore] at h
  exact ⟨he, h.1⟩

end Template

end Stencil

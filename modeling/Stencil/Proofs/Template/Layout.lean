import Stencil.Proofs.Template.Lexing
import Stencil.Proofs.Template.Nesting

/-!
# How segments lie in a source

The segments of a source lie end to end. `Laid` says so from left to right, and with each segment it says
why it ends where it does, a text before the first opening delimiter and a tag at the first thing that
closes it, and which delimiters the next one is read with. The segments that reading gives are laid so
(`laid_segments`), and the rest of the file reads off what that means for the whole source, for each
segment by itself, and for the offset and the delimiters of the segment in some place.
-/

set_option autoImplicit false

namespace Stencil.Template

open Text

/-- A text ends where the opening delimiter is found first, or with the source if it is not found. -/
def EndsText (pair : Delimiters) (source content : List Char) : Prop :=
  (∃ after, FirstAt pair.opening source content after) ∨
    (source = content ∧ ¬ pair.opening <:+: content)

/-- From this place on, a source is these segments. -/
inductive Laid : Delimiters → Nat → List Char → List Segment → Prop
  | nil {pair : Delimiters} {offset : Nat} : Laid pair offset [] []
  | text {pair : Delimiters} {offset : Nat} {content rest : List Char} {segments : List Segment}
    (hne : content ≠ []) (he : EndsText pair (content ++ rest) content)
    (hl : Laid pair (offset + content.length) rest segments) :
    Laid pair offset (content ++ rest) (⟨offset, content, pair, pair, .text content⟩ :: segments)
  | tag {pair next : Delimiters} {offset : Nat} {text : List Char} {bounded : Bounded}
    {segments : List Segment} (hb : Bounds pair text bounded)
    (hn : Follows pair (bounded.tag offset) next)
    (hl : Laid next (offset + bounded.written.length) bounded.rest segments) :
    Laid pair offset text
      (⟨offset, bounded.written, pair, next, .tag (bounded.tag offset)⟩ :: segments)
  | fault {pair : Delimiters} {offset : Nat} {text : List Char} {error : SyntaxError}
    (hne : text ≠ []) : Laid pair offset text [⟨offset, text, pair, pair, .fault error⟩]

/-! ## Reading lays segments -/

theorem laid_textSegment {cursor : Cursor} {before after : List Char} {segments : List Segment}
    (hf : FirstAt cursor.delimiters.opening cursor.rest before after)
    (hl : Laid cursor.delimiters (cursor.offset + before.length)
      (cursor.delimiters.opening ++ after) segments) :
    Laid cursor.delimiters cursor.offset cursor.rest
      (cursor.textSegment before ++ segments) := by
  have heq : cursor.rest = before ++ (cursor.delimiters.opening ++ after) := by
    rw [hf.eq, List.append_assoc]
  rw [heq]
  cases before with
  | nil => exact hl
  | cons c rest => exact .text (List.cons_ne_nil c rest) (.inl ⟨after, heq ▸ hf⟩) hl

theorem opening_append_ne_nil (pair : Delimiters) (after : List Char) :
    pair.opening ++ after ≠ [] := by
  intro h
  exact pair.opening_ne_nil (List.append_eq_nil_iff.1 h).1

/-- **Reading lays the segments of a source end to end.** -/
theorem laid_segments (cursor : Cursor) :
    Laid cursor.delimiters cursor.offset cursor.rest cursor.segments := by
  refine Cursor.segments_induction
    (motive := fun cursor segments =>
      Laid cursor.delimiters cursor.offset cursor.rest segments)
    (fun cursor read hs => ?_) (fun cursor read next hs ih => ?_) cursor
  · cases hs with
    | text hn =>
      unfold Cursor.textSegment
      split
      · next he =>
        rw [List.isEmpty_iff.1 he]
        exact .nil
      · next hne =>
        have hrest : cursor.rest ≠ [] := by simpa using hne
        have hl : Laid cursor.delimiters cursor.offset (cursor.rest ++ []) _ :=
          .text hrest (.inr ⟨List.append_nil cursor.rest, hn⟩) .nil
        rwa [List.append_nil] at hl
    | unterminated hf ho hn => exact laid_textSegment hf (.fault (opening_append_ne_nil _ _))
    | refused hf hb hr => exact laid_textSegment hf (.fault (opening_append_ne_nil _ _))
  · cases hs with
    | tag hf hb hn =>
      rw [List.append_assoc]
      exact laid_textSegment hf (.tag hb hn ih)

/-! ## The whole and its parts -/

section Laid

variable {pair : Delimiters} {offset : Nat} {text : List Char} {segments : List Segment}

/-- Nothing of a source is lost, and nothing is there twice. -/
theorem Laid.flatten (h : Laid pair offset text segments) :
    (segments.map Segment.written).flatten = text := by
  induction h with
  | nil => rfl
  | text _ _ _ ih => rw [List.map_cons, List.flatten_cons, ih]
  | tag hb _ _ ih => rw [List.map_cons, List.flatten_cons, ih, hb.eq]
  | fault _ => simp

theorem Laid.written_ne_nil (h : Laid pair offset text segments) :
    ∀ segment ∈ segments, segment.written ≠ [] := by
  induction h with
  | nil => exact fun segment hm => absurd hm List.not_mem_nil
  | text hne _ _ ih => exact List.forall_mem_cons.2 ⟨hne, ih⟩
  | tag hb _ _ ih => exact List.forall_mem_cons.2 ⟨hb.written_ne_nil, ih⟩
  | fault hne => exact List.forall_mem_cons.2 ⟨hne, fun segment hm => absurd hm List.not_mem_nil⟩

theorem Laid.start (h : Laid pair offset text segments) {k : Nat} {segment : Segment}
    (hk : segments[k]? = some segment) :
    segment.start = offset + ((segments.take k).map Segment.written).flatten.length := by
  induction h generalizing k with
  | nil => simp at hk
  | text _ _ _ ih | tag _ _ _ ih =>
    cases k with
    | zero =>
      cases hk
      rfl
    | succ k =>
      rw [ih hk, List.take_succ_cons, List.map_cons, List.flatten_cons, List.length_append,
        Nat.add_assoc]
  | fault _ =>
    cases k with
    | zero =>
      cases hk
      rfl
    | succ k => simp at hk

end Laid

/-- A segment of this source is a text that ends where texts end, or a tag that is bounded as tags are,
or a fault. -/
def Sound (source : List Char) (segment : Segment) : Prop :=
  match segment.token with
  | .text content => segment.written = content ∧
    EndsText segment.delimiters (source.drop segment.start) content
  | .tag tag => ∃ bounded, Bounds segment.delimiters (source.drop segment.start) bounded ∧
    segment.written = bounded.written ∧ tag = bounded.tag segment.start
  | .fault _ => True

theorem Laid.sound {pair : Delimiters} {offset : Nat} {text source : List Char}
    {segments : List Segment} (h : Laid pair offset text segments)
    (hs : source.drop offset = text) : ∀ segment ∈ segments, Sound source segment := by
  induction h with
  | nil => exact fun segment hm => absurd hm List.not_mem_nil
  | @text pair offset content rest segments hne he hl ih =>
    -- the next segment is looked for in what is left of the source after this one
    have hrest : source.drop (offset + content.length) = rest := by
      rw [← List.drop_drop, hs, List.drop_left]
    refine List.forall_mem_cons.2 ⟨⟨rfl, ?_⟩, ih hrest⟩
    rw [hs]
    exact he
  | @tag pair next offset text bounded segments hb hn hl ih =>
    have hrest : source.drop (offset + bounded.written.length) = bounded.rest := by
      rw [← List.drop_drop, hs, hb.eq, List.drop_left]
    refine List.forall_mem_cons.2 ⟨⟨bounded, ?_, rfl, rfl⟩, ih hrest⟩
    rw [hs]
    exact hb
  | fault _ => exact List.forall_mem_cons.2 ⟨trivial, fun segment hm => absurd hm List.not_mem_nil⟩

/-- What comes after a text is a tag, or what cannot be read. -/
theorem not_text_of_endsText {pair : Delimiters} {offset : Nat} {content rest : List Char}
    {segment : Segment} {segments : List Segment} (he : EndsText pair (content ++ rest) content)
    (hl : Laid pair offset rest (segment :: segments)) (text : List Char) :
    segment.token ≠ .text text := by
  intro ht
  cases hl with
  | tag => cases ht
  | fault => cases ht
  | @text _ _ next rest _ hne he' _ =>
    have hlength : 0 < next.length := List.length_pos_iff.2 hne
    rcases he with ⟨after, hf⟩ | ⟨hlast, _⟩
    · have hopening : pair.opening ++ after = next ++ rest := by
        have heq := hf.eq
        rw [List.append_assoc] at heq
        exact (List.append_cancel_left heq).symm
      -- the delimiter is found where the second text starts
      rcases he' with ⟨_, hf'⟩ | ⟨hlast', hn'⟩
      · refine hf'.first 0 hlength ?_
        rw [List.drop_zero, ← hopening]
        exact List.prefix_append _ after
      · refine hn' ?_
        rw [← hlast', ← hopening]
        exact (List.prefix_append _ after).isInfix
    · have hnil : next ++ rest = [] := List.append_right_eq_self.1 hlast
      exact hne (List.append_eq_nil_iff.1 hnil).1

/-! ## The delimiters in force -/

/-- The tags that switch the delimiters. -/
def switchesIn (tags : List Tag) : List Tag := tags.filter (·.type = .switch)

theorem switchesIn_cons_of_switch {tag : Tag} (h : tag.type = .switch) (tags : List Tag) :
    switchesIn (tag :: tags) = tag :: switchesIn tags :=
  List.filter_cons_of_pos (by simpa using h)

theorem switchesIn_cons_of_other {tag : Tag} (h : tag.type ≠ .switch) (tags : List Tag) :
    switchesIn (tag :: tags) = switchesIn tags :=
  List.filter_cons_of_neg (by simpa using h)

/-- After these tags, these delimiters are in force: the ones that the latest switch spells, or those
from before if there was none. -/
def InForce (first : Delimiters) (tags : List Tag) (pair : Delimiters) : Prop :=
  match (switchesIn tags).getLast? with
  | none => pair = first
  | some tag => Delimiters.Spells tag.name.toList pair

theorem InForce.cons {first next pair : Delimiters} {tag : Tag} {tags : List Tag}
    (hn : Follows first tag next) (h : InForce next tags pair) : InForce first (tag :: tags) pair := by
  unfold InForce at h ⊢
  cases hn with
  | kept hs =>
    rw [switchesIn_cons_of_other hs]
    exact h
  | switched hs hspells =>
    rw [switchesIn_cons_of_switch hs, List.getLast?_cons]
    cases hl : (switchesIn tags).getLast? with
    | none =>
      rw [hl] at h
      rw [show pair = next from h]
      exact hspells
    | some latest =>
      rw [hl] at h
      exact h

theorem Laid.inForce {pair : Delimiters} {offset : Nat} {text : List Char} {segments : List Segment}
    (h : Laid pair offset text segments) {k : Nat} {segment : Segment}
    (hk : segments[k]? = some segment) :
    InForce pair (tagsOf (segments.take k)) segment.delimiters := by
  induction h generalizing k with
  | nil => simp at hk
  | text _ _ _ ih =>
    cases k with
    | zero =>
      cases hk
      rfl
    | succ k => exact ih hk
  -- a tag is the one segment that can change what is in force for those behind it
  | tag _ hn _ ih =>
    cases k with
    | zero =>
      cases hk
      rfl
    | succ k => exact (ih hk).cons hn
  | fault _ =>
    cases k with
    | zero =>
      cases hk
      rfl
    | succ k => simp at hk

end Stencil.Template

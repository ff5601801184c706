import Stencil.Delimiters
import Stencil.Tag
import Stencil.Text.Search

/-!
# Segments of a source

A source is read from the left as verbatim text and tags. Text reaches up to the first occurrence
of the opening delimiter, a tag up to the first occurrence of the closing delimiter after that.
Between braces, a third brace right after the opening ones makes the tag a triple one, which three
braces close. A tag can switch the delimiters for what comes after it.

Reading goes on until the source ends or a tag turns out to be faulty. The faulty tag is the last
segment then, so the segments tell in one list, from left to right, all there is to know about a
source before its sections are looked at.
-/

set_option autoImplicit false

namespace Stencil.Template

inductive Token
  | text (content : List Char)
  | tag (tag : Tag)
  /-- A tag that cannot be read, and with it all that follows. -/
  | fault (error : SyntaxError)
deriving DecidableEq, Repr

structure Segment where
  /-- The offset of its first character. -/
  start : Nat
  /-- The characters that it covers. -/
  written : List Char
  /-- The delimiters in force where it starts. -/
  delimiters : Delimiters
  /-- The delimiters in force after it. -/
  next : Delimiters
  token : Token
deriving Repr

/-- A place in a source, with what has not been read yet. -/
structure Cursor where
  delimiters : Delimiters
  offset : Nat
  rest : List Char
deriving Repr

/-- A tag as it is written: whether it is a triple one, the text between its delimiters, all its
characters, and what follows it. -/
structure Bounded where
  triple : Bool
  interior : List Char
  written : List Char
  rest : List Char
deriving Repr

/-- The tag whose opening delimiter has just been read, up to its closing delimiter. -/
def bound? (pair : Delimiters) (after : List Char) : Option Bounded :=
  let triple := pair.isBraces && after.head? == some '{'
  let inside := if triple then after.drop 1 else after
  let closing := if triple then ['}', '}', '}'] else pair.closing
  match Text.cut closing inside with
  | none => none
  | some (interior, rest) =>
    let opened := if triple then pair.opening ++ ['{'] else pair.opening
    some ⟨triple, interior, opened ++ interior ++ closing, rest⟩

def following (pair : Delimiters) (tag : Tag) : Except SyntaxError Delimiters :=
  if tag.type = .switch then Delimiters.read tag.name tag.position else .ok pair

namespace Cursor

/-- The text before the next tag, if there is any. -/
def textSegment (cursor : Cursor) (text : List Char) : List Segment :=
  if text.isEmpty then []
  else [⟨cursor.offset, text, cursor.delimiters, cursor.delimiters, .text text⟩]

/-- Reads the text up to the next tag and that tag. Reading does not go on after a text that the
source ends with, nor after a faulty tag. -/
def step (cursor : Cursor) : List Segment × Option Cursor :=
  let pair := cursor.delimiters
  match Text.cut pair.opening cursor.rest with
  | none => (cursor.textSegment cursor.rest, none)
  | some (before, after) =>
    let start := cursor.offset + before.length
    let fault (error : SyntaxError) : List Segment × Option Cursor :=
      (cursor.textSegment before ++ [⟨start, pair.opening ++ after, pair, pair, .fault error⟩],
        none)
    match bound? pair after with
    | none => fault (.unterminatedTag start)
    | some bounded =>
      let tag := Tag.classify (Text.trim bounded.interior) bounded.triple start
      match following pair tag with
      | .error error => fault error
      | .ok next =>
        (cursor.textSegment before ++ [⟨start, bounded.written, pair, next, .tag tag⟩],
          some ⟨next, start + bounded.written.length, bounded.rest⟩)

end Cursor

theorem length_rest_le_of_bound? {pair : Delimiters} {after : List Char} {bounded : Bounded}
    (h : bound? pair after = some bounded) : bounded.rest.length ≤ after.length := by
  simp only [bound?] at h
  generalize (pair.isBraces && after.head? == some '{') = triple at h
  split at h
  · simp at h
  · next hc =>
    cases h
    have hl := congrArg List.length (Text.cut_eq_some hc)
    have hd : (if triple = true then after.drop 1 else after).length ≤ after.length := by
      split <;> simp
    simp only [List.length_append] at hl ⊢
    omega

/-- Each step that does not end the reading leaves less to read. -/
theorem Cursor.length_rest_lt_of_step {cursor next : Cursor} {read : List Segment}
    (h : cursor.step = (read, some next)) : next.rest.length < cursor.rest.length := by
  simp only [Cursor.step] at h
  split at h
  · simp at h
  · next before after hc =>
    have hlt := Text.length_lt_of_cut cursor.delimiters.opening_ne_nil hc
    split at h
    · simp at h
    · next bounded hb =>
      have hle := length_rest_le_of_bound? hb
      split at h
      · simp at h
      · have hn := Option.some.inj (congrArg Prod.snd h)
        rw [← hn]
        exact Nat.lt_of_le_of_lt hle hlt

/-- The segments of what is left to read. -/
def Cursor.segments (cursor : Cursor) : List Segment :=
  if cursor.rest.isEmpty then []
  else
    match _h : cursor.step with
    | (read, none) => read
    | (read, some next) => read ++ next.segments
termination_by cursor.rest.length
decreasing_by exact Cursor.length_rest_lt_of_step _h

/-- The segments of a source that is read from these delimiters on. -/
def segments (pair : Delimiters) (source : List Char) : List Segment :=
  Cursor.segments ⟨pair, 0, source⟩

end Stencil.Template

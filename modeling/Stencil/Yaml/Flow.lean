import Stencil.Yaml.Cursor
import Stencil.Yaml.Fault

/-!
# Plain and quoted scalars

Text without an indicator of its own is plain: it goes on, over line ends, to the next character
that means something else where it stands. Quoted text goes on to the closing quote; between single
quotes only the quote itself is special, between double quotes a backslash starts an escape.

In both kinds line ends are folded. Neither may run over the start or the end of a document.
-/

set_option autoImplicit false

namespace Stencil.Yaml

/-! ## Plain -/

/-- The number of characters up to where a word of plain text ends: at a blank, at a colon that a
blank follows, and at the characters that structure what it stands in. -/
def wordLength (enders : List Char) : List Char → Nat
  | [] => 0
  | c :: rest =>
    let ends := if c == ':' then endsWord rest.head? else endsWord (some c) || enders.contains c
    if ends then 0 else wordLength enders rest + 1

/-- Goes over spaces and line breaks, and returns the breaks; the flag is lowered if a break comes
before the start or the end of a document. -/
def plainBreaks : Nat → Cursor → List Char → Bool × List Char × Cursor
  | 0, cursor, breaks => (true, breaks, cursor)
  | fuel + 1, cursor, breaks =>
    match cursor.lineBreak? with
    | some (c, after) =>
      if after.atSeparator then (false, breaks ++ [c], after)
      else plainBreaks fuel after (breaks ++ [c])
    | none =>
      if cursor.peek? == some ' ' then plainBreaks fuel cursor.next breaks
      else (true, breaks, cursor)

/-- What lies between two words of plain text. -/
structure PlainGap where
  text : List Char
  /-- Whether there is a line break in it. -/
  crossed : Bool
  after : Cursor

/-- The gap at a cursor. One that ends the scalar has no text. -/
def plainGap (cursor : Cursor) : PlainGap :=
  let spaces := cursor.span (· == ' ')
  match spaces.2.lineBreak? with
  | none => ⟨spaces.1, false, spaces.2⟩
  | some (first, after) =>
    if after.atSeparator then ⟨[], true, after⟩
    else
      let blanks := after.rest.takeWhile fun c => c == ' ' || isBreak c
      let breaks := plainBreaks (blanks.length + 1) after []
      ⟨if breaks.1 then fold first breaks.2.1 else [], true, breaks.2.2⟩

structure PlainScalar where
  /-- The text in reverse. -/
  text : List Char
  /-- Whether a line break came after the last word. -/
  crossed : Bool
  after : Cursor

/-- Goes on with a plain scalar after a gap. -/
def plainFrom (enders : List Char) (indent : Nat) : Nat → PlainScalar → List Char → PlainScalar
  | 0, scalar, _ => scalar
  | fuel + 1, scalar, gap =>
    let length := wordLength enders scalar.after.rest
    if length = 0 || scalar.after.peek? == some '#' then scalar
    else
      let text := (scalar.after.rest.take length).reverse ++ (gap.reverse ++ scalar.text)
      let next := plainGap (scalar.after.skip length)
      let scalar := ⟨text, next.crossed, next.after⟩
      if next.text.isEmpty || next.after.column < indent then scalar
      else plainFrom enders indent fuel scalar next.text

/-- The plain scalar at a cursor, which some characters end and whose later lines are indented by
`indent`. No more than `bound` characters are left. -/
def plainScalar (enders : List Char) (indent bound : Nat) (cursor : Cursor) : PlainScalar :=
  let read := plainFrom enders indent (bound + 1) ⟨[], false, cursor⟩ []
  { read with text := read.text.reverse }

/-! ## Quoted -/

/-- The characters that one letter after a backslash stands for. -/
def escapes : List (Char × Char) :=
  [('0', '\x00'), ('a', '\x07'), ('b', '\x08'), ('t', '\t'), ('\t', '\t'), ('n', '\n'),
    ('v', '\x0b'), ('f', '\x0c'), ('r', '\r'), ('e', '\x1b'), (' ', ' '), ('"', '"'), ('/', '/'),
    ('\\', '\\'), ('N', '\x85'), ('_', '\xa0'), ('L', '\u2028'), ('P', '\u2029')]

/-- How many digits follow a letter that announces the number of a character. -/
def escapeWidth? : Char → Option Nat
  | 'x' => some 2
  | 'u' => some 4
  | 'U' => some 8
  | _ => none

/-- The number that exactly so many hexadecimal digits at the start of a text denote. -/
def hexNumber? : Nat → Nat → List Char → Option Nat
  | 0, value, _ => some value
  | _ + 1, _, [] => none
  | count + 1, value, c :: rest =>
    match hexValue? c with
    | some digit => hexNumber? count (value * 16 + digit) rest
    | none => none

/-- The second half of a character that is written in two halves. -/
def lowHalf? (text : List Char) : Option Nat :=
  match text with
  | '\\' :: 'u' :: rest =>
    match hexNumber? 4 0 rest with
    | some low => if 0xDC00 ≤ low && low < 0xE000 then some (low - 0xDC00) else none
    | none => none
  | _ => none

/-- The character with a number, and how many characters were needed after the number to tell. -/
def charOfNumber (code : Nat) (rest : List Char) : Except Fault (Char × Nat) :=
  if 0xD800 ≤ code && code < 0xDC00 then
    orMalformed ((lowHalf? rest).map fun low =>
      (Char.ofNat (0x10000 + (code - 0xD800) * 0x400 + low), 6))
  else if code.isValidChar then .ok (Char.ofNat code, 0)
  else if code < 0xE000 then .error .malformed
  else if code ≤ 0x7FFFFFFF then .error .notCharacter
  else .error .farCharacter

/-- Goes over blanks and line breaks, and collects the breaks. -/
def quotedBreaksFrom : Nat → Cursor → List Char → Option (List Char × Cursor)
  | 0, _, _ => none
  | fuel + 1, cursor, breaks =>
    if cursor.atSeparator then none
    else
      let cursor := cursor.skipWhile isSpaceOrTab
      match cursor.lineBreak? with
      | some (c, after) => quotedBreaksFrom fuel after (breaks ++ [c])
      | none => some (breaks, cursor)

/-- The line breaks that come next, with blanks around them, and the place after these. -/
def quotedBreaks (cursor : Cursor) : Except Fault (List Char × Cursor) :=
  let blanks := cursor.rest.takeWhile fun c => isSpaceOrTab c || isBreak c
  orMalformed (quotedBreaksFrom (blanks.length + 1) cursor [])

/-- What an escape stands for; the cursor is after the backslash. -/
def escaped (cursor : Cursor) : Except Fault (List Char × Cursor) :=
  match cursor.peek? with
  | none => .error .malformed
  | some c =>
    match escapes.lookup c, escapeWidth? c with
    | some plain, _ => .ok ([plain], cursor.next)
    | none, some width =>
      let digits := cursor.next
      match hexNumber? width 0 digits.rest with
      | none => .error .malformed
      | some code =>
        let after := digits.skip width
        (charOfNumber code after.rest).map fun named => ([named.1], after.skip named.2)
    | none, none =>
      match cursor.lineBreak? with
      | some (_, after) => quotedBreaks after
      | none => .error .malformed

/-- What blanks and line breaks between quotes stand for. -/
def quotedGap (cursor : Cursor) : Except Fault (List Char × Cursor) :=
  let blanks := cursor.span isSpaceOrTab
  match blanks.2.lineBreak? with
  | none => .ok blanks
  | some (first, after) =>
    (quotedBreaks after).map fun breaks => (fold first breaks.1, breaks.2)

/-- Reads on to the closing quote; the text so far is in reverse. -/
def quotedFrom (quote : Char) : Nat → List Char → Cursor → Except Fault (List Char × Cursor)
  | 0, _, _ => .error .malformed
  | fuel + 1, text, cursor =>
    match cursor.peek? with
    | none => .error .malformed
    | some c =>
      if c == quote then
        if quote == '\'' && cursor.ahead? 1 == some quote then
          quotedFrom quote fuel (quote :: text) (cursor.skip 2)
        else .ok (text.reverse, cursor.next)
      else
        let piece :=
          if c == '\\' && quote == '"' then escaped cursor.next
          else if isSpaceOrTab c || isBreak c then quotedGap cursor
          else .ok ([c], cursor.next)
        match piece with
        | .error fault => .error fault
        | .ok (more, after) => quotedFrom quote fuel (more.reverse ++ text) after

/-- The quoted scalar at a cursor, which is at the opening quote. No more than `bound` characters
are left. -/
def quotedScalar (quote : Char) (bound : Nat) (cursor : Cursor) :
    Except Fault (List Char × Cursor) :=
  quotedFrom quote (bound + 1) [] cursor.next

end Stencil.Yaml

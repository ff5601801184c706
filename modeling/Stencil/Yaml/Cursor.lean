/-!
# Places in YAML text

A cursor is what is left of a text, with the place that has been reached: how many characters came
before, in which line and in which column. Several characters end a line of text, but for the count
only a line feed starts a new one, and a byte order mark takes up no column.

The three classes of following character at the end of this module take the end of the text for a
character of its own, `none`.
-/

set_option autoImplicit false

namespace Stencil.Yaml

structure Cursor where
  rest : List Char
  index : Nat := 0
  line : Nat := 0
  column : Nat := 0

/-- The character that can stand before a text to tell its encoding. -/
def byteOrderMark : Char := '\ufeff'

namespace Cursor

def next (cursor : Cursor) : Cursor :=
  match cursor.rest with
  | [] => cursor
  | c :: rest =>
    if c == '\n' then ⟨rest, cursor.index + 1, cursor.line + 1, 0⟩
    else
      ⟨rest, cursor.index + 1, cursor.line,
        if c == byteOrderMark then cursor.column else cursor.column + 1⟩

def skip (cursor : Cursor) : Nat → Cursor
  | 0 => cursor
  | count + 1 => cursor.next.skip count

def peek? (cursor : Cursor) : Option Char := cursor.rest.head?

def ahead? (cursor : Cursor) (count : Nat) : Option Char := cursor.rest[count]?

/-- The longest run of characters of a kind, and the place after it. -/
def span (cursor : Cursor) (test : Char → Bool) : List Char × Cursor :=
  let run := cursor.rest.takeWhile test
  (run, cursor.skip run.length)

def skipWhile (cursor : Cursor) (test : Char → Bool) : Cursor := (cursor.span test).2

def skipSpaces (cursor : Cursor) : Cursor := cursor.skipWhile (· == ' ')

end Cursor

/-- A character that ends a line of text. -/
def isBreak (c : Char) : Bool := c == '\n' || c == '\x85' || c == '\u2028' || c == '\u2029'

def isSpaceOrTab (c : Char) : Bool := c == ' ' || c == '\t'

/-- The character that a line break is read as, and the place after it. -/
def Cursor.lineBreak? (cursor : Cursor) : Option (Char × Cursor) :=
  match cursor.peek? with
  | some c => if isBreak c then some (if c == '\x85' then '\n' else c, cursor.next) else none
  | none => none

/-- Nothing more comes in the line. -/
def endsLine : Option Char → Bool
  | none => true
  | some c => isBreak c

/-- An indicator that this follows stands by itself. -/
def endsWord (following : Option Char) : Bool :=
  endsLine following || following.any isSpaceOrTab

/-- A tag, a directive or a header that this follows is complete. -/
def endsField (following : Option Char) : Bool := endsLine following || following == some ' '

/-- Whether three characters that separate documents, and no more of a word, come next. -/
def Cursor.atMarker (cursor : Cursor) (mark : Char) : Bool :=
  cursor.rest.take 3 == [mark, mark, mark] && endsWord (cursor.ahead? 3)

/-- Whether a document starts or ends here, wherever in the line this is. -/
def Cursor.atSeparator (cursor : Cursor) : Bool := cursor.atMarker '-' || cursor.atMarker '.'

/-- The place of the end of the line. -/
def Cursor.skipLine (cursor : Cursor) : Cursor := cursor.skipWhile fun c => !endsLine (some c)

/-- What a break inside flowing text stands for: alone it is a space, but before further breaks it
is nothing, and only the further ones count. -/
def fold (first : Char) (more : List Char) : List Char :=
  (if first != '\n' then [first] else if more.isEmpty then [' '] else []) ++ more

end Stencil.Yaml

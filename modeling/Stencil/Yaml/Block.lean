import Stencil.Yaml.Cursor

/-!
# Block scalars

A block scalar is a header and the lines below it that are indented far enough. The header says
whether the lines are kept apart or folded into flowing text, how the line breaks at the end are
treated, and, if the first line does not show it, how far the lines are indented.
-/

set_option autoImplicit false

namespace Stencil.Yaml

/-- What becomes of the line breaks at the end of a block scalar. -/
inductive Chomping
  /-- One is kept. -/
  | clip
  | keep
  | strip
deriving DecidableEq, Repr

def Chomping.ofChar? : Char → Option Chomping
  | '+' => some .keep
  | '-' => some .strip
  | _ => none

structure BlockHeader where
  chomping : Chomping := .clip
  /-- How much deeper than the surroundings the lines are, where that is given. -/
  increment : Option Nat := none

/-- The chomping at a cursor, if it is given there, and the place after it. -/
def readChomping (cursor : Cursor) : Option Chomping × Cursor :=
  match cursor.peek?.bind Chomping.ofChar? with
  | some chomping => (some chomping, cursor.next)
  | none => (none, cursor)

/-- The increment at a cursor, if it is given there, and the place after it. Zero is refused. -/
def readIncrement (cursor : Cursor) : Option (Option Nat × Cursor) :=
  match cursor.peek? with
  | none => some (none, cursor)
  | some c =>
    if c == '0' then none
    else if c.isDigit then some (some (c.toNat - '0'.toNat), cursor.next)
    else some (none, cursor)

/-- The header at a cursor and the place of the line after it; the two indicators can come in
either order, and a comment can follow. -/
def readHeader (cursor : Cursor) : Option (BlockHeader × Cursor) := do
  let early := readChomping cursor
  let (increment, cursor) ← readIncrement early.2
  let (chomping, cursor) :=
    match early.1, increment with
    | none, some _ => readChomping cursor
    | chomping, _ => (chomping, cursor)
  guard (endsField cursor.peek?)
  let cursor := cursor.skipSpaces
  let cursor := if cursor.peek? == some '#' then cursor.skipLine else cursor
  guard (endsLine cursor.peek?)
  return (⟨chomping.getD .clip, increment⟩, cursor.next)

/-- The lines without content that a block scalar starts with. -/
structure BlockStart where
  breaks : List Char := []
  /-- The deepest column that spaces lead to. -/
  deepest : Nat := 0
  /-- The column of the first line break. -/
  firstColumn : Option Nat := none
  after : Cursor

/-- Goes over spaces and line breaks to the first line with content. -/
def blockStart : Nat → BlockStart → BlockStart
  | 0, start => start
  | fuel + 1, start =>
    match start.after.lineBreak? with
    | some (c, after) =>
      blockStart fuel
        { start with
          breaks := start.breaks ++ [c]
          firstColumn := some (start.firstColumn.getD start.after.column)
          after := after }
    | none =>
      if start.after.peek? == some ' ' then
        let after := start.after.next
        blockStart fuel { start with deepest := max start.deepest after.column, after := after }
      else start

/-- Whether the first lines are indented consistently. -/
def BlockStart.isEven (start : BlockStart) : Bool :=
  match start.firstColumn with
  | some column => column = 0 || start.deepest ≤ column
  | none => true

/-- Goes over the spaces of the indentation, no further. -/
def skipIndent (indent : Nat) : Nat → Cursor → Cursor
  | 0, cursor => cursor
  | fuel + 1, cursor =>
    if cursor.column < indent && cursor.peek? == some ' ' then skipIndent indent fuel cursor.next
    else cursor

/-- Goes over lines without content, and collects their breaks. -/
def blockBreaksFrom (indent : Nat) : Nat → Cursor → List Char → List Char × Cursor
  | 0, cursor, breaks => (breaks, cursor)
  | fuel + 1, cursor, breaks =>
    let cursor := skipIndent indent indent cursor
    match cursor.lineBreak? with
    | some (c, after) => blockBreaksFrom indent fuel after (breaks ++ [c])
    | none => (breaks, cursor)

/-- The number of spaces and line breaks that come next. -/
def emptyLength (cursor : Cursor) : Nat :=
  (cursor.rest.takeWhile fun c => c == ' ' || isBreak c).length

/-- The breaks of the lines without content that come next, and the place after these. -/
def blockBreaks (indent : Nat) (cursor : Cursor) : List Char × Cursor :=
  blockBreaksFrom indent (emptyLength cursor + 1) cursor []

/-- How the lines of a block scalar are put together. -/
structure BlockStyle where
  folded : Bool
  indent : Nat
  /-- Whether the lines can start where documents start. -/
  atMargin : Bool

/-- What has been read of a block scalar: the text, the break after the last line, the breaks of the
lines without content after it, and the place after these. -/
structure BlockText where
  /-- The text in reverse. -/
  text : List Char := []
  lineEnd : List Char := []
  breaks : List Char
  after : Cursor

/-- Whether a line of the scalar starts here. -/
def BlockStyle.hasLine (style : BlockStyle) (cursor : Cursor) : Bool :=
  cursor.column == style.indent && cursor.peek?.isSome

/-- Reads the lines of a block scalar. Folding joins two lines by a space unless lines without
content lie between them, but leaves lines that start with a blank alone. -/
def blockLines (style : BlockStyle) : Nat → BlockText → BlockText
  | 0, block => block
  | fuel + 1, block =>
    let startsBlank := block.after.peek?.any isSpaceOrTab
    let line := block.after.span fun c => !endsLine (some c)
    let text := line.1.reverse ++ (block.breaks.reverse ++ block.text)
    let (lineEnd, next) :=
      match line.2.lineBreak? with
      | some (c, after) => ([c], after)
      | none => ([], line.2)
    let breaks := blockBreaks style.indent next
    let stop := style.atMargin && breaks.2.column = 0 && breaks.2.atSeparator
    if stop || !style.hasLine breaks.2 then ⟨text, lineEnd, breaks.1, breaks.2⟩
    else
      let joins :=
        style.folded && lineEnd == ['\n'] && !startsBlank && !breaks.2.peek?.any isSpaceOrTab
      let joint := if joins then (if breaks.1.isEmpty then [' '] else []) else lineEnd
      blockLines style fuel ⟨joint ++ text, lineEnd, breaks.1, breaks.2⟩

/-- The block scalar at a cursor, which is at the indicator of its style; the surroundings are
indented by `indent`, which is minus one outside every collection. No more than `bound` characters
are left. -/
def blockScalar (folded : Bool) (indent : Int) (bound : Nat) (cursor : Cursor) :
    Option (List Char × Cursor) := do
  let (header, cursor) ← readHeader cursor.next
  let margin := (indent + 1).toNat
  let (style, start) ←
    match header.increment with
    | some increment =>
      let indent := max margin 1 + increment - 1
      let breaks := blockBreaks indent cursor
      pure (BlockStyle.mk folded indent false, breaks)
    | none => do
      let start := blockStart (emptyLength cursor + 1) { after := cursor }
      guard start.isEven
      pure (BlockStyle.mk folded (max margin start.deepest) (margin = 0), (start.breaks, start.after))
  let block :=
    if style.hasLine start.2 then
      blockLines style (bound + 1) { breaks := start.1, after := start.2 }
    else { breaks := start.1, after := start.2 }
  let text :=
    match header.chomping with
    | .clip => block.text.reverse ++ block.lineEnd
    | .keep => block.text.reverse ++ block.lineEnd ++ block.breaks
    | .strip => block.text.reverse
  return (text, block.after)

end Stencil.Yaml

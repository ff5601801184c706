import Stencil.Text.Digit
import Stencil.Text.Utf8
import Stencil.Yaml.Flow
import Stencil.Yaml.Block
import Stencil.Yaml.Kind

/-!
# YAML tokens

The tokens of a text make its structure explicit: where collections start and end, which of them
are shown by brackets and which by indentation, and what is a key.

Two things are only known after the fact. A block collection ends where a line is indented less, so
the columns of the open ones are kept, innermost first. And whether something is a key shows at the
colon after it: each bracket level remembers the last token that could start a key, and the token
`key` is put before it when the colon comes. A key has to stand in one line and be of moderate
length, and where the indentation asks for one it has to be there.

Tokens are read as they are asked for, and one that could start a key is not given out before that is
settled. So when the reading of tokens breaks off, what was given out until then still counts: a
text can be at fault there first.

Older versions of the language differ in what a colon or a question mark means between brackets.
-/

set_option autoImplicit false

namespace Stencil.Yaml

inductive Token
  | versionDirective (major minor : Nat)
  | handleDirective (handle expansion : String)
  | otherDirective
  | documentStart
  | documentEnd
  | blockSequence
  | blockMapping
  | blockEnd
  | flowSequence
  | flowSequenceEnd
  | flowMapping
  | flowMappingEnd
  | flowEntry
  | blockEntry
  | key
  | value
  | alias (name : String)
  | anchor (name : String)
  /-- A tag is a suffix to a handle, or is written out in full. -/
  | tag (handle : Option String) (suffix : String)
  | scalar (text : String) (plain : Bool)
deriving DecidableEq, Repr

/-! ## Names, tags and directives -/

/-- A character of the names that nodes are given. -/
def isNameChar (c : Char) : Bool :=
  !(c == ',' || c == '[' || c == ']' || c == '{' || c == '}') &&
    (('!' ≤ c && c ≤ '~') || ('\xa0' ≤ c && c ≤ '\ud7ff') ||
      ('\ue000' ≤ c && c ≤ '\ufffd' && c != byteOrderMark) || '\ufffd'.toNat + 2 < c.toNat)

/-- The name after an asterisk or an ampersand. -/
def readName (cursor : Cursor) : Option (String × Cursor) := do
  let (name, after) := cursor.next.span isNameChar
  guard !name.isEmpty
  guard (endsWord after.peek? || after.peek?.any fun c => isBreak c || ",[]{}".toList.contains c)
  return (String.ofList name, after)

def isHandleChar (c : Char) : Bool := c.isAlphanum || c == '-' || c == '_'

/-- A character of a tag; the number sign only became one after the first versions. -/
def isTagChar (minor : Nat) (c : Char) : Bool :=
  c.isAlphanum || "-;/?:@&=+$,_.!~*'()[]%".toList.contains c || (1 < minor && c == '#')

/-- The bytes written as escapes at the start of a text, and the number of escapes; nothing if one
of them is incomplete. -/
def escapedBytes : Nat → List Char → Option (List UInt8 × Nat)
  | fuel + 1, '%' :: rest =>
    match hexNumber? 2 0 rest with
    | none => none
    | some byte => (escapedBytes fuel (rest.drop 2)).map fun more => (byte.toUInt8 :: more.1, more.2 + 1)
  | _, _ => some ([], 0)

/-- The text of a tag or of a handle's expansion. -/
def readTagText (minor : Nat) : Nat → List Char → Cursor → Option (List Char × Cursor)
  | 0, _, _ => none
  | fuel + 1, text, cursor =>
    match cursor.peek? with
    | none => some (text, cursor)
    | some c =>
      if c == '%' then
        match escapedBytes cursor.rest.length cursor.rest with
        | none => none
        | some (bytes, count) =>
          match Text.Utf8.decode bytes with
          | .error _ => none
          | .ok chars => readTagText minor fuel (text ++ chars) (cursor.skip (3 * count))
      else if isTagChar minor c then readTagText minor fuel (text ++ [c]) cursor.next
      else some (text, cursor)

def readTagSuffix (minor : Nat) (cursor : Cursor) : Option (String × Cursor) := do
  let (text, after) ← readTagText minor (cursor.rest.length + 1) [] cursor
  guard !text.isEmpty
  return (String.ofList text, after)

/-- A handle: a word between exclamation marks, or a single one before a space. -/
def readHandle (cursor : Cursor) : Option (String × Cursor) := do
  guard (cursor.peek? == some '!')
  if cursor.ahead? 1 == some ' ' then return ("!", cursor.next)
  let (name, after) := cursor.next.span isHandleChar
  guard (after.peek? == some '!')
  return (String.ofList ('!' :: name ++ ['!']), after.next)

/-- The tag at a cursor, which is at an exclamation mark. -/
def readTag (minor : Nat) (cursor : Cursor) : Option (Token × Cursor) := do
  let double := cursor.ahead? 1 == some '!'
  let start := if double then cursor.next else cursor
  let short := if double then "!!" else "!"
  let (token, after) ←
    if start.ahead? 1 == some '<' then do
      let (text, after) ← readTagSuffix minor (start.skip 2)
      guard (after.peek? == some '>')
      pure (Token.tag none text, after.next)
    else if endsWord (start.ahead? 1) then pure (Token.tag none short, start.next)
    else do
      let word := start.next.rest.takeWhile fun c => !endsField (some c)
      let (handle, after) ←
        if word.contains '!' then readHandle start else some (short, start.next)
      let (suffix, after) ← readTagSuffix minor after
      pure (Token.tag (some handle) suffix, after)
  guard (endsField after.peek?)
  return (token, after)

def readNumber (cursor : Cursor) : Except Fault (Nat × Cursor) := do
  let (digits, after) := cursor.span Char.isDigit
  check !digits.isEmpty
  if numeralLimit < digits.length then throw (.numeral (.tooLong digits.length))
  return (Text.decimalNumber digits, after)

/-- The directive at a cursor, which is at a percent sign, and the place of the next line. -/
def readDirective (minor : Nat) (cursor : Cursor) : Except Fault (Token × Cursor) := do
  let (name, after) := cursor.next.span fun c => isHandleChar c || c == ':' || c == '.'
  check (!name.isEmpty && endsField after.peek?)
  let (token, after) ←
    if name == "YAML".toList then do
      let (major, after) ← readNumber after.skipSpaces
      check (after.peek? == some '.')
      let (minor, after) ← readNumber after.next
      check (endsField after.peek?)
      pure (Token.versionDirective major minor, after)
    else if name == "TAG".toList then do
      let (handle, after) ← orMalformed (readHandle after.skipSpaces)
      check (after.peek? == some ' ')
      let (expansion, after) ← orMalformed (readTagSuffix minor after.skipSpaces)
      check (endsField after.peek?)
      pure (Token.handleDirective handle expansion, after)
    else pure (Token.otherDirective, after.skipLine)
  let after := after.skipSpaces
  let after := if after.peek? == some '#' then after.skipLine else after
  check (endsLine after.peek?)
  return (token, after.next)

/-! ## The state of reading tokens -/

/-- A token that turns out to start a key if a colon follows in time. -/
structure PossibleKey where
  /-- The number of tokens before it. -/
  position : Nat
  index : Nat
  line : Nat
  column : Nat
  /-- Whether nothing but a key can stand here. -/
  required : Bool

structure Scanner where
  cursor : Cursor
  /-- How many tokens have been given out. -/
  given : Nat := 0
  /-- The tokens after those. -/
  tokens : Array Token := #[]
  /-- The column of the innermost block collection, minus one if there is none. -/
  indent : Int := -1
  /-- The columns of those around it. -/
  outer : List Int := []
  /-- The open brackets, innermost first: whether each is that of a mapping. -/
  brackets : List Bool := []
  /-- For each level, innermost first, the token that could start a key. -/
  keys : List (Option PossibleKey) := [none]
  /-- Whether a key could start at the next token. -/
  keyAllowed : Bool := true
  /-- The minor number of the version of the language. -/
  minor : Nat

namespace Scanner

def inFlow (s : Scanner) : Bool := !s.brackets.isEmpty

def count (s : Scanner) : Nat := s.given + s.tokens.size

def add (token : Token) (s : Scanner) : Scanner := { s with tokens := s.tokens.push token }

/-- Puts a token before those from a position on, which have not been given out. -/
def insert (position : Nat) (token : Token) (s : Scanner) : Scanner :=
  { s with tokens := s.tokens.insertIdxIfInBounds (position - s.given) token }

/-- A token made of some characters at the cursor. -/
def take (count : Nat) (token : Token) (s : Scanner) : Scanner :=
  { s.add token with cursor := s.cursor.skip count }

def allowKey (allowed : Bool) (s : Scanner) : Scanner := { s with keyAllowed := allowed }

/-- Gives the possible key of the current level up, unless it is required. -/
def dropKey (s : Scanner) : Except Fault Scanner :=
  match s.keys with
  | some key :: rest => if key.required then .error .malformed else .ok { s with keys := none :: rest }
  | _ => .ok s

/-- Remembers the next token as a possible key. -/
def saveKey (s : Scanner) : Except Fault Scanner :=
  if !s.keyAllowed then .ok s
  else
    s.dropKey.map fun s =>
      let key : PossibleKey :=
        { position := s.count
          index := s.cursor.index
          line := s.cursor.line
          column := s.cursor.column
          required := !s.inFlow && s.indent == s.cursor.column }
      { s with keys := some key :: s.keys.drop 1 }

/-- The most characters that a key may have. -/
def keyLimit : Nat := 1024

/-- A possible key with nothing for one that is in an earlier line or too long. -/
def freshKey (s : Scanner) : Option PossibleKey → Except Fault (Option PossibleKey)
  | none => .ok none
  | some key =>
    if key.line = s.cursor.line && s.cursor.index ≤ key.index + keyLimit then .ok (some key)
    else if key.required then .error .malformed
    else .ok none

/-- Gives up possible keys that have come too far from their colon. -/
def dropStaleKeys (s : Scanner) : Except Fault Scanner :=
  (s.keys.mapM s.freshKey).map fun keys => { s with keys := keys }

/-- Gives out tokens up to the first that could start a key, each with the version. -/
def give (s : Scanner) : List (Token × Nat) × Scanner :=
  let waiting := s.keys.filterMap fun key => key.map PossibleKey.position
  let size := waiting.foldl min s.count - s.given
  let tokens := s.tokens.toList
  ((tokens.take size).map fun token => (token, s.minor),
    { s with given := s.given + size, tokens := (tokens.drop size).toArray })

/-- Ends the collections that are indented deeper than a column. -/
def unwindFrom (column : Int) (indent : Int) : List Int → Array Token → Int × List Int × Array Token
  | [], tokens => (indent, [], tokens)
  | next :: rest, tokens =>
    if column < indent then unwindFrom column next rest (tokens.push .blockEnd)
    else (indent, next :: rest, tokens)

def unwind (column : Int) (s : Scanner) : Scanner :=
  if s.inFlow then s
  else
    let unwound := unwindFrom column s.indent s.outer s.tokens
    { s with indent := unwound.1, outer := unwound.2.1, tokens := unwound.2.2 }

/-- Starts a block collection at a column unless one is open there, with its token put before the
tokens from a position on. -/
def startBlock (column : Nat) (position : Nat) (token : Token) (s : Scanner) : Scanner :=
  if s.indent < column then
    { s.insert position token with
      outer := s.indent :: s.outer
      indent := column }
  else s

/-- Goes over blanks, comments and line ends to the next token. A tab counts as a blank only between
brackets. -/
def skipToToken : Nat → Scanner → Scanner
  | 0, s => s
  | fuel + 1, s =>
    let cursor := s.cursor.skipWhile fun c => c == ' ' || (s.inFlow && c == '\t')
    let cursor := if cursor.peek? == some '#' then cursor.skipLine else cursor
    match cursor.lineBreak? with
    | none => { s with cursor := cursor }
    | some (_, after) =>
      skipToToken fuel { s with cursor := after, keyAllowed := s.keyAllowed || !s.inFlow }

/-! ## The tokens by their first character -/

/-- The start of a document, its end, or a directive: nothing stays open over it. -/
def closeAll (s : Scanner) : Except Fault Scanner := (s.unwind (-1)).dropKey.map (allowKey false)

def openBracket (mapping : Bool) (s : Scanner) : Except Fault Scanner :=
  s.saveKey.map fun s =>
    let s := s.take 1 (if mapping then .flowMapping else .flowSequence)
    { s with brackets := mapping :: s.brackets, keys := none :: s.keys, keyAllowed := true }

def closeBracket (mapping : Bool) (s : Scanner) : Except Fault Scanner :=
  s.dropKey.map fun s =>
    let s := (s.take 1 (if mapping then .flowMappingEnd else .flowSequenceEnd)).allowKey false
    match s.brackets with
    | [] => s
    | _ :: rest => { s with brackets := rest, keys := s.keys.drop 1 }

def comma (s : Scanner) : Except Fault Scanner :=
  s.dropKey.map fun s => (s.take 1 .flowEntry).allowKey true

/-- A dash or a question mark that starts an entry: in a block only where a key could start. -/
def blockIndicator (collection token : Token) (keyAfter : Bool) (s : Scanner) :
    Except Fault Scanner :=
  if s.inFlow then s.dropKey.map fun s => (s.take 1 token).allowKey keyAfter
  else if !s.keyAllowed then .error .malformed
  else
    (s.startBlock s.cursor.column s.count collection).dropKey.map fun s =>
      (s.take 1 token).allowKey keyAfter

/-- A colon. With a possible key before it that token becomes a key; otherwise the key has been
announced or is empty. -/
def colon (s : Scanner) : Except Fault Scanner :=
  match s.keys with
  | some key :: rest =>
    let s := { s.insert key.position .key with keys := none :: rest }
    let s := if s.inFlow then s else s.startBlock key.column key.position .blockMapping
    .ok ((s.take 1 .value).allowKey false)
  | _ =>
    if s.inFlow then .ok ((s.take 1 .value).allowKey false)
    else if !s.keyAllowed then .error .malformed
    else
      let s := s.startBlock s.cursor.column s.count .blockMapping
      .ok ((s.take 1 .value).allowKey true)

/-- A token that could be or start a key, read by `read`. -/
def content (read : Cursor → Except Fault (Token × Cursor)) (s : Scanner) :
    Except Fault Scanner := do
  let s ← s.saveKey
  let (token, after) ← read s.cursor
  return { (s.add token).allowKey false with cursor := after }

def named (token : String → Token) : Scanner → Except Fault Scanner :=
  content fun cursor => orMalformed ((readName cursor).map fun read => (token read.1, read.2))

def quoted (quote : Char) (bound : Nat) : Scanner → Except Fault Scanner :=
  content fun cursor =>
    (quotedScalar quote bound cursor).map fun read => (.scalar (String.ofList read.1) false, read.2)

def block (folded : Bool) (bound : Nat) (s : Scanner) : Except Fault Scanner := do
  let s ← s.dropKey
  let (text, after) ← orMalformed (blockScalar folded s.indent bound s.cursor)
  return { (s.add (.scalar (String.ofList text) false)).allowKey true with cursor := after }

/-- The characters that end plain text where it stands. -/
def plainEnders (s : Scanner) : List Char :=
  if !s.inFlow then []
  else if s.minor = 1 then [',', '[', ']', '\x7b', '\x7d', '?']
  else [',', '[', ']', '\x7b', '\x7d']

/-- Plain text. A line break after it lets a key start again. -/
def plain (bound : Nat) (s : Scanner) : Except Fault Scanner := do
  let s ← s.saveKey
  let indent := if s.inFlow then 0 else (s.indent + 1).toNat
  let read := plainScalar s.plainEnders indent bound s.cursor
  return { (s.add (.scalar (String.ofList read.text) true)).allowKey read.crossed with
    cursor := read.after }

def directive (s : Scanner) : Except Fault Scanner := do
  let s ← s.closeAll
  let (token, after) ← readDirective s.minor s.cursor
  let minor :=
    match token with
    | .versionDirective _ minor => minor
    | _ => s.minor
  return { s.add token with cursor := after, minor := minor }

/-- The characters that plain text cannot start with. -/
def isIndicator (c : Char) : Bool := "-?:,[]{}#&*!|>'\"%@`".toList.contains c

/-- Whether a colon with this character after it separates a key from its value. Between braces it
does, unless it comes right after another and that one has not been given out. -/
def isSeparatingColon (s : Scanner) (following : Option Char) : Bool :=
  let pending := s.tokens.back? == some .value
  match s.brackets with
  | [] => endsWord following
  | mapping :: _ => s.minor = 1 || endsWord following || (mapping && !pending)

/-- Whether plain text starts with this character before that one. -/
def startsPlain (s : Scanner) (c : Char) (following : Option Char) : Bool :=
  if !isIndicator c then !isSpaceOrTab c && !isBreak c
  else if c == '-' then !endsWord following
  else if c == ':' && s.inFlow then s.minor != 1 && !following.any isSpaceOrTab
  else (c == '?' || c == ':') && !s.inFlow && !endsWord following

/-- Reads the token that starts with this character. -/
def token (c : Char) (bound : Nat) (s : Scanner) : Except Fault Scanner :=
  let following := s.cursor.ahead? 1
  let atMargin := s.cursor.column = 0
  if c == '%' && atMargin then s.directive
  else if atMargin && s.cursor.atMarker '-' then s.closeAll.map (take 3 .documentStart)
  else if atMargin && s.cursor.atMarker '.' then s.closeAll.map (take 3 .documentEnd)
  else if c == '[' then s.openBracket false
  else if c == '{' then s.openBracket true
  else if c == ']' then s.closeBracket false
  else if c == '}' then s.closeBracket true
  else if c == ',' then s.comma
  else if c == '-' && endsWord following then s.blockIndicator .blockSequence .blockEntry true
  else if c == '?' && (s.inFlow || endsWord following) then
    s.blockIndicator .blockMapping .key (!s.inFlow)
  else if c == ':' && s.isSeparatingColon following then s.colon
  else if c == '*' then s.named .alias
  else if c == '&' then s.named .anchor
  else if c == '!' then s.content fun cursor => orMalformed (readTag s.minor cursor)
  else if c == '|' && !s.inFlow then s.block false bound
  else if c == '>' && !s.inFlow then s.block true bound
  else if c == '\'' || c == '"' then s.quoted c bound
  else if s.startsPlain c following then s.plain bound
  else .error .malformed

/-- Reads one token, with those that it settles; nothing at the end of the text. -/
def step (bound : Nat) (s : Scanner) : Except Fault (Option Scanner) := do
  let s ← (s.skipToToken bound).dropStaleKeys
  let s := s.unwind s.cursor.column
  match s.cursor.peek? with
  | none => return none
  | some c => return some (← s.token c (bound - 1))

end Scanner

/-- The tokens of a text as far as they are given out, each with the version of the language at that
time, and why there are no more if that is not the end of the text. -/
structure TokenStream where
  tokens : List (Token × Nat)
  fault : Option Fault := none

/-- Reads tokens up to the end of the text, after some that have been given out. Every token takes a
character at least, so the fuel never falls below the number of characters left. -/
def Scanner.run (given : Array (Token × Nat)) : Nat → Scanner → TokenStream
  | 0, _ => ⟨given.toList, some .malformed⟩
  | fuel + 1, s =>
    match s.dropStaleKeys with
    | .error fault => ⟨given.toList, some fault⟩
    | .ok s =>
      let (tokens, s) := s.give
      let given := given.appendList tokens
      match s.step (fuel + 1) with
      | .error fault => ⟨given.toList, some fault⟩
      | .ok (some next) => run given fuel next
      | .ok none =>
        match s.closeAll with
        | .error fault => ⟨given.toList, some fault⟩
        | .ok s => ⟨(given.appendList { s with keys := [] }.give.1).toList, none⟩

def isPermitted (c : Char) : Bool :=
  c == '\t' || c == '\n' || c == '\r' || (' ' ≤ c && c ≤ '~') || c == '\x85' ||
    ('\xa0' ≤ c && c ≤ '\ufffd') || 0x10000 ≤ c.toNat

/-- The tokens of a text in a version of the language, unless the text gives another; a byte order
mark at its start is not part of it. -/
def TokenStream.ofText (minor : Nat) (text : List Char) : TokenStream :=
  let start : Cursor := { rest := text }
  let start := if start.peek? == some byteOrderMark then start.next else start
  if text.all isPermitted then Scanner.run #[] (text.length + 2) { cursor := start, minor }
  else ⟨[], some .malformed⟩

end Stencil.Yaml

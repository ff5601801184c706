import Stencil.Yaml.Kind
import Stencil.Yaml.Token

/-!
# YAML nodes

The tokens of a document denote a node: a scalar, or a collection of nodes. Since a node can be named
and used again, also inside itself, the nodes of a document make up a table, and collections hold
indices into it. Every node is entered before the nodes inside it.

Where a node is missing there is an empty one, which stands for null.

Tokens are only looked at when they are needed, so a fault of the structure is seen before a fault
in the reading of later tokens. The version of the language is the one that holds at the token
looked at last.
-/

set_option autoImplicit false

namespace Stencil.Yaml

inductive Node
  | scalar (kind : Kind) (text : String)
  | sequence (kind : Kind) (items : List Nat)
  /-- The flag says whether entries of other mappings have been taken over. -/
  | mapping (kind : Kind) (entries : List (Nat × Nat)) (merged : Bool)
deriving Repr

instance : Inhabited Node := ⟨.scalar .null ""⟩

def Node.kind : Node → Kind
  | .scalar kind _ => kind
  | .sequence kind _ => kind
  | .mapping kind _ _ => kind

/-! ## Tags -/

/-- The tag that asks for a node to be read as if it had none and were plain. -/
def openTag : String := "!"

def Kind.ofScalar (minor : Nat) (tag : Option String) (text : String) (plain : Bool) :
    Except Fault Kind :=
  match tag with
  | some tag => if tag == openTag then Kind.ofText minor text else .ok (.ofTag tag)
  | none => if plain then Kind.ofText minor text else .ok .text

/-- The kind of a collection that is of one sort unless a tag says otherwise. -/
def Kind.ofCollection (tag : Option String) (sort : Kind) : Kind :=
  match tag with
  | some tag => if tag == openTag then sort else .ofTag tag
  | none => sort

/-- The character that the text after a percent sign stands for. -/
def escapedChar (digits : List Char) : Except Fault Char :=
  match readInteger 16 (String.ofList digits) with
  | .error error => .error (.numeral error)
  | .ok code => if code < 0 then .error .notCharacter else .ok (Char.ofNat code.toNat)

/-- A tag with its escapes replaced. The escapes are those that are left after the tag has been
read, so that an escaped percent sign can make up another escape. -/
def unescapeTag : List Char → Except Fault (List Char)
  | [] => .ok []
  | ['%'] => return [← escapedChar []]
  | ['%', a] => return [← escapedChar [a]]
  | '%' :: a :: b :: rest => return (← escapedChar [a, b]) :: (← unescapeTag rest)
  | c :: rest => return c :: (← unescapeTag rest)

/-- What handles stand for where no directive says otherwise. -/
def standardHandles : List (String × String) := [("!", "!"), ("!!", standardTags)]

/-! ## Reading nodes -/

/-- What is left of the tokens, and what has been made of them. -/
structure Composer where
  tokens : List (Token × Nat)
  /-- Why no more tokens come, if that is not the end of the text. -/
  fault : Option Fault
  nodes : Array Node := #[]
  /-- Named nodes, latest first. -/
  names : List (String × Nat) := []
  /-- What handles of tags stand for. -/
  handles : List (String × String) := []
  /-- The minor number of the version of the language. -/
  minor : Nat

abbrev Compose := StateT Composer (Except Fault)

namespace Compose

/-- The next token; nothing at the end of the text. -/
def peek : Compose (Option Token) := do
  let s ← get
  match s.tokens, s.fault with
  | [], some fault => throw fault
  | [], none => return none
  | (token, minor) :: _, _ =>
    set { s with minor := minor }
    return some token

def drop : Compose Unit := modify fun s => { s with tokens := s.tokens.tail }

/-- Takes a token if it is the next one, and says whether it was. -/
def skip (token : Token) : Compose Bool := do
  if (← peek) == some token then
    drop
    return true
  else return false

def require (token : Token) : Compose Unit := do check (← skip token)

def enter (node : Node) : Compose Nat :=
  modifyGet fun s =>
    let index := s.nodes.size
    (index, { s with nodes := s.nodes.push node })

def update (index : Nat) (node : Node) : Compose Unit :=
  modify fun s => { s with nodes := s.nodes.setIfInBounds index node }

def empty : Compose Nat := do
  let kind ← Kind.ofText (← get).minor ""
  enter (.scalar kind "")

/-- The name and the tag of a node, the tag as a handle and a suffix. -/
structure Properties where
  name : Option String := none
  tag : Option (Option String × String) := none

/-- Adds what a token says about a node, if it says something new. -/
def Properties.add? (p : Properties) : Token → Option Properties
  | .anchor name => if p.name.isNone then some { p with name := some name } else none
  | .tag handle suffix => if p.tag.isNone then some { p with tag := some (handle, suffix) } else none
  | _ => none

/-- The properties that come next, at most two. -/
def properties : Nat → Properties → Compose Properties
  | 0, p => return p
  | count + 1, p => do
    match (← peek).bind p.add? with
    | none => return p
    | some p =>
      drop
      properties count p

def Properties.tagText (p : Properties) : Compose (Option String) := do
  match p.tag with
  | none => return none
  | some (handle, suffix) =>
    let start ←
      match handle with
      | none => pure ""
      | some handle => orMalformed ((← get).handles.lookup handle)
    return some (start ++ String.ofList (← unescapeTag suffix.toList))

/-- Enters a node and gives it its name. -/
def enterNamed (p : Properties) (node : Node) : Compose Nat := do
  let index ← enter node
  match p.name with
  | some name => modify fun s => { s with names := (name, index) :: s.names }
  | none => pure ()
  return index

/-- Enters a scalar and gives it its name. -/
def enterScalar (p : Properties) (tag : Option String) (text : String) (plain : Bool) :
    Compose Nat := do
  let kind ← Kind.ofScalar (← get).minor tag text plain
  enterNamed p (.scalar kind text)

/-- What ends the tokens of a collection or one of its entries. -/
def isAt (tokens : List Token) : Compose Bool := do
  return (← peek).any tokens.contains

/-- Whether a colon comes next that has no key before it. Older versions ask for a key. -/
def atBareValue : Compose Bool := do
  return 1 < (← get).minor && (← isAt [.value])

mutual

/-- The next node. Block collections count as one only where `block` allows them, and a sequence
without an indentation of its own only where `loose` does. -/
def node (block loose : Bool) : Nat → Compose Nat
  | 0 => throw .malformed
  | fuel + 1 => do
    match ← peek with
    | some (.alias name) =>
      drop
      orMalformed ((← get).names.lookup name)
    | _ =>
      let p ← properties 2 {}
      let tag ← p.tagText
      let sequenceKind := Kind.ofCollection tag .sequence
      let mappingKind := Kind.ofCollection tag .mapping
      match ← peek with
      | some (.scalar text plain) =>
        drop
        enterScalar p tag text plain
      | some .flowSequence =>
        drop
        let index ← enterNamed p (.sequence sequenceKind [])
        let items ← flowItems true fuel
        update index (.sequence sequenceKind items)
        return index
      | some .flowMapping =>
        drop
        let index ← enterNamed p (.mapping mappingKind [] false)
        let entries ← flowEntries true fuel
        update index (.mapping mappingKind entries false)
        return index
      | some .blockEntry =>
        if loose then
          let index ← enterNamed p (.sequence sequenceKind [])
          let items ← blockItems true fuel
          update index (.sequence sequenceKind items)
          return index
        else absent p tag
      | some .blockSequence =>
        if block then
          drop
          let index ← enterNamed p (.sequence sequenceKind [])
          let items ← blockItems false fuel
          update index (.sequence sequenceKind items)
          return index
        else absent p tag
      | some .blockMapping =>
        if block then
          drop
          let index ← enterNamed p (.mapping mappingKind [] false)
          let entries ← blockEntries fuel
          update index (.mapping mappingKind entries false)
          return index
        else absent p tag
      | _ => absent p tag
where
  /-- A node of which there are only properties. -/
  absent (p : Properties) (tag : Option String) : Compose Nat := do
    check (p.name.isSome || p.tag.isSome)
    enterScalar p tag "" true

/-- A node, or an empty one where one of these tokens, or the end, comes first. -/
def nodeUnless (tokens : List Token) (block loose : Bool) : Nat → Compose Nat
  | 0 => throw .malformed
  | fuel + 1 => do
    if ← isAt tokens then empty else node block loose fuel

/-- The items of a block sequence. One without an indentation of its own ends where its items end. -/
def blockItems (loose : Bool) : Nat → Compose (List Nat)
  | 0 => throw .malformed
  | fuel + 1 => do
    if ← skip .blockEntry then
      let stop :=
        if loose then [Token.blockEntry, .key, .value, .blockEnd] else [.blockEntry, .blockEnd]
      let item ← nodeUnless stop true false fuel
      return item :: (← blockItems loose fuel)
    else
      if !loose then require .blockEnd
      return []

def blockEntries : Nat → Compose (List (Nat × Nat))
  | 0 => throw .malformed
  | fuel + 1 => do
    let stop := [Token.key, .value, .blockEnd]
    let announced ← skip .key
    if announced || (← atBareValue) then
      let key ← if announced then nodeUnless stop true true fuel else empty
      let value ← if ← skip .value then nodeUnless stop true true fuel else empty
      return (key, value) :: (← blockEntries fuel)
    else
      require .blockEnd
      return []

/-- The items of a sequence in brackets. A key among them makes a mapping of one entry. -/
def flowItems (first : Bool) : Nat → Compose (List Nat)
  | 0 => throw .malformed
  | fuel + 1 => do
    if ← skip .flowSequenceEnd then return []
    if !first then require .flowEntry
    if ← skip .flowSequenceEnd then return []
    if ← skip .key then
      let stop := [Token.flowEntry, .flowSequenceEnd]
      let index ← enter (.mapping .mapping [] false)
      let key ← nodeUnless (.value :: stop) false false fuel
      let value ← if ← skip .value then nodeUnless stop false false fuel else empty
      update index (.mapping .mapping [(key, value)] false)
      return index :: (← flowItems false fuel)
    else
      let item ← node false false fuel
      return item :: (← flowItems false fuel)

def flowEntries (first : Bool) : Nat → Compose (List (Nat × Nat))
  | 0 => throw .malformed
  | fuel + 1 => do
    if ← skip .flowMappingEnd then return []
    if !first then require .flowEntry
    if ← skip .flowMappingEnd then return []
    let stop := [Token.flowEntry, .flowMappingEnd]
    let announced ← skip .key
    let bare := !announced && !(← atBareValue)
    let key ←
      if announced then nodeUnless (.value :: stop) false false fuel
      else if bare then node false false fuel
      else empty
    let valued ← if bare then pure false else skip .value
    let value ← if valued then nodeUnless stop false false fuel else empty
    return (key, value) :: (← flowEntries false fuel)

end

/-- The directives before a document: at most one version, which has to be of this language, and
no handle twice. -/
def directives (versioned : Bool) : List (Token × Nat) → Compose Unit
  | (.versionDirective major _, _) :: rest => do
    check (!versioned && major = 1)
    directives true rest
  | (.handleDirective handle expansion, _) :: rest => do
    let s ← get
    check (s.handles.lookup handle).isNone
    set { s with handles := (handle, expansion) :: s.handles }
    directives versioned rest
  | (.otherDirective, _) :: rest => directives versioned rest
  | rest => modify fun s => { s with tokens := rest }

def isDirective : Token → Bool
  | .versionDirective _ _ => true
  | .handleDirective _ _ => true
  | .otherDirective => true
  | _ => false

/-- Goes over the marks at the end of a document. Only an older version allows several. -/
def skipEnds : Nat → Compose Unit
  | 0 => return ()
  | fuel + 1 => do
    if (← skip .documentEnd) && (← get).minor = 1 then skipEnds fuel

/-- Makes sure that no further document follows. The directives of one are still read. -/
def requireEnd : Compose Unit := do
  match ← peek with
  | none => return ()
  | some token =>
    if isDirective token then
      directives false (← get).tokens
      let _ ← peek
    throw .malformed

/-- The one document of a text; a text without any has no node. -/
def document (bound : Nat) : Compose (Option Nat) := do
  match ← peek with
  | none => return none
  | some first =>
    directives false (← get).tokens
    let explicit ← skip .documentStart
    check (explicit || !isDirective first)
    modify fun s => { s with handles := s.handles ++ standardHandles }
    let stop := (← peek).all fun token =>
      isDirective token || token == .documentStart || token == .documentEnd
    let root ← if explicit && stop then empty else node true false bound
    skipEnds bound
    requireEnd
    return some root

end Compose

/-- A document: its root, the table of its nodes, and the minor number of its version of the
language. -/
structure NodeTable where
  root : Option Nat
  nodes : Array Node
  minor : Nat

/-- The document that a text holds, if it is the text of one document or of none. The version of the
language is the given one unless the text gives another. -/
def NodeTable.ofText (minor : Nat) (text : List Char) : Except Fault NodeTable := do
  let stream := TokenStream.ofText minor text
  let (root, composer) ←
    (Compose.document (4 * stream.tokens.length + 8)).run
      { tokens := stream.tokens, fault := stream.fault, minor }
  return ⟨root, composer.nodes, composer.minor⟩

end Stencil.Yaml

import Stencil.Data.Graph
import Stencil.Yaml.Merge
import Stencil.Yaml.Scalar

/-!
# Making data of YAML nodes

Every node is made into a scalar or a container, once, so what is shared in the document is shared in
the data. A container is empty when it is made. It is filled later, when the containers made before
it have been, so a collection can hold itself; but a key, with everything in it, is filled at once.
So it can happen that a list is a key before it is filled, and is an empty tuple then, and inside
itself a key is null.

In this order faults are met: of a mapping, first what is wrong with the mappings that it takes over,
then for each entry what is wrong with the key and with the value, then whether the key can be a key,
and whether it is new. A key stands once in a mapping, unless entries were taken over; then the last
one wins.

Two values that are no number are one key only if they are one thing: named in so many words, or made
of one node.
-/

set_option autoImplicit false

namespace Stencil.Yaml

/-- What a node is made into. -/
inductive Item
  /-- The origin is the node of a number that is none, unless it is the one that has a name. -/
  | scalar (value : Scalar) (origin : Option Nat)
  | container (reference : Nat)
deriving Repr

instance : Inhabited Item := ⟨.scalar .null none⟩

/-- A literal that is a key, with the origins of what is no number in it. -/
structure Key where
  literal : Literal
  origins : List (Option Nat)
deriving Repr

namespace Key

def ofScalar (value : Scalar) (origin : Option Nat) : Key :=
  ⟨.scalar value, if value = .float .notANumber then [origin] else []⟩

def tuple (items : List Key) : Key := ⟨.tuple (items.map literal), items.flatMap origins⟩

def same (a b : Key) : Bool := a.literal.sameBy true b.literal && a.origins == b.origins

/-- Entries with a value set: in the place of the same key, otherwise at the end. -/
def set {α : Type} (key : Key) (value : α) : List (Key × α) → List (Key × α)
  | [] => [(key, value)]
  | entry :: rest =>
    if entry.1.same key then (entry.1, value) :: rest else entry :: set key value rest

end Key

inductive Container
  | list (items : List Item)
  | tuple (items : List Item)
  | mapping (ordered : Bool) (entries : List (Key × Item))
  | set (members : List Key)
deriving Repr

instance : Inhabited Container := ⟨.list []⟩

namespace Container

/-- The empty container that nodes of a kind are made into. -/
def ofKind? : Kind → Option Container
  | .sequence => some (.list [])
  | .mapping => some (.mapping false [])
  | .set => some (.set [])
  | .ordered => some (.mapping true [])
  | .pairs => some (.list [])
  | _ => none

def sort : Container → String
  | .list _ => "list"
  | .tuple _ => "tuple"
  | .mapping false _ => "dict"
  | .mapping true _ => "ordereddict"
  | .set _ => "set"

def keys : Container → List Key
  | .mapping _ entries => entries.map Prod.fst
  | .set members => members
  | _ => []

def items : Container → List Item
  | .list items => items
  | .tuple items => items
  | .mapping _ entries => entries.map Prod.snd
  | .set _ => []

end Container

structure Assembly where
  nodes : Nodes
  /-- What each node has been made into. -/
  made : Array (Option Item)
  containers : Array Container := #[]
  /-- The nodes with containers that have to be filled later, in this order. -/
  waiting : Array (Nat × Nat) := #[]
  /-- The nodes that are being made, innermost first. -/
  busy : List Nat := []
  /-- The minor number of the version of the language. -/
  minor : Nat
  /-- More than there are merge keys. -/
  bound : Nat

namespace Assembly

def container (s : Assembly) (reference : Nat) : Container := s.containers.getD reference default

/-! ## Keys -/

/-- An item of a pair in a key. -/
def pairPart (s : Assembly) : Item → Except Fault Key
  | .scalar value origin => .ok (.ofScalar value origin)
  | .container reference => .error (.uncomparable (s.container reference).sort)

/-- An item of a list that is a key. Of containers only pairs can be compared. -/
def listPart (s : Assembly) (item : Item) : Except Fault Key :=
  match item with
  | .scalar _ _ => s.pairPart item
  | .container reference =>
    match s.container reference with
    | .tuple items => (items.mapM s.pairPart).map .tuple
    | _ => s.pairPart item

/-- The items of a list that is to be a key. No other container can be one. -/
def keyList (s : Assembly) : Item → Except Fault (Option (List Item))
  | .scalar _ _ => .ok none
  | .container reference =>
    match s.container reference with
    | .list items => .ok (some items)
    | _ => .error .malformed

/-- The key that an item is, with its items if it is a list. -/
def key (s : Assembly) (item : Item) : Option (List Item) → Except Fault Key
  | none => s.listPart item
  | some items => (items.mapM s.listPart).map .tuple

def canWriteKey (key : Key) : Bool := key.literal.written.isOk

/-- Whether items, and all that they lead to, can be written. Containers are looked into once. -/
def canWrite (s : Assembly) : Nat → List Nat → List Item → Bool
  | _, _, [] => true
  | 0, _, _ => true
  | fuel + 1, seen, .scalar value _ :: rest => value.written.isOk && s.canWrite fuel seen rest
  | fuel + 1, seen, .container reference :: rest =>
    if seen.contains reference then s.canWrite fuel seen rest
    else
      let container := s.container reference
      container.keys.all canWriteKey
        && s.canWrite fuel (reference :: seen) (container.items ++ rest)

/-- What is wrong with a key that comes twice. It is reported with both its values, so these have to
be such as can be written. -/
def duplicate (s : Assembly) (key : Key) (value original : Item) : Fault :=
  let size := s.containers.foldl (fun size container => size + container.items.length) 2
  if canWriteKey key && s.canWrite size [] [value, original] then .malformed
  else .numeral .tooLongToWrite

end Assembly

abbrev Assemble := StateT Assembly (Except Fault)

namespace Assemble

/-! ## Scalars -/

/-- The text of a node where a scalar is asked for. A mapping stands for the value of the key that has
this meaning. -/
def scalarText (nodes : Nodes) : Nat → Nat → Except Fault String
  | 0, _ => .error .endless
  | fuel + 1, index =>
    match nodes.getD index default with
    | .scalar _ text => .ok text
    | .sequence _ _ => .error .malformed
    | .mapping _ entries _ =>
      match entries.find? fun entry => nodes.kind entry.1 = .default with
      | some entry => scalarText nodes fuel entry.2
      | none => .error .malformed

/-- The scalar that a node stands for. Only a scalar node is a timestamp. -/
def scalar (index : Nat) : Assemble Item := do
  let s ← get
  let kind := s.nodes.kind index
  if [Kind.merge, .default, .unknown].contains kind then throw .malformed
  if kind = .timestamp && s.nodes.isMapping index then throw .malformed
  let text ← scalarText s.nodes (s.nodes.size + 1) index
  let value ← readScalar s.minor kind text
  return .scalar value (if namesNotANumber text then none else some index)

/-! ## Containers -/

def add (container : Container) : Assemble Nat :=
  modifyGet fun s =>
    let reference := s.containers.size
    (reference, { s with containers := s.containers.push container })

def put (reference : Nat) (container : Container) : Assemble Unit :=
  modify fun s => { s with containers := s.containers.setIfInBounds reference container }

/-- The key and the value that an item of an ordered mapping or of a list of pairs holds. -/
def onlyEntry (index : Nat) : Assemble (Nat × Nat) := do
  match (← get).nodes.entries index with
  | [entry] => return entry
  | _ => throw .malformed

variable (inner : Bool → Nat → Assemble Item)

/-- The entries of a mapping, where `inner` makes the nodes inside it, at once or not. -/
def mappingEntries (atOnce : Bool) (index : Nat) : Assemble (List (Key × Item)) := do
  let s ← get
  let nodes ← orMalformed (s.nodes.settle index s.bound)
  set { s with nodes := nodes }
  let merged :=
    match nodes[index]? with
    | some (.mapping _ _ merged) => merged
    | _ => false
  (nodes.entries index).foldlM (fun read entry => do
    let item ← inner true entry.1
    let list ← (← get).keyList item
    let value ← inner atOnce entry.2
    let key ← (← get).key item list
    match read.find? fun other => !merged && other.1.same key with
    | some other => throw ((← get).duplicate key value other.2)
    | none => return Key.set key value read) []

/-- The entries of an ordered mapping, each an item of a sequence. -/
def orderedEntries (atOnce : Bool) (items : List Nat) : Assemble (List (Key × Item)) :=
  items.foldlM (fun read index => do
    let entry ← onlyEntry index
    let item ← inner atOnce entry.1
    let key ← (← get).pairPart item
    if read.any fun other => other.1.same key then throw .repeated
    let value ← inner atOnce entry.2
    return read ++ [(key, value)]) []

/-- A key and a value, made into a container of two. -/
def pair (atOnce : Bool) (index : Nat) : Assemble Item := do
  let entry ← onlyEntry index
  let key ← inner atOnce entry.1
  let value ← inner atOnce entry.2
  return .container (← add (.tuple [key, value]))

/-- Fills the container that a node has been made into. -/
def fill (atOnce : Bool) (index reference : Nat) : Assemble Unit := do
  match (← get).nodes.getD index default with
  | .sequence .sequence items => put reference (.list (← items.mapM (inner atOnce)))
  | .sequence .pairs items => put reference (.list (← items.mapM (pair inner atOnce)))
  | .sequence .ordered items =>
    put reference (.mapping true (← orderedEntries inner atOnce items))
  | .mapping .mapping _ _ => put reference (.mapping false (← mappingEntries inner atOnce index))
  | .mapping .set _ _ =>
    put reference (.set ((← mappingEntries inner atOnce index).map Prod.fst))
  | _ => throw .malformed

/-- Makes a node, with everything in it if that is to be done at once. A node that is asked for while
it is being made is null. At once, nodes are made inside nodes, each once, so the fuel, which allows for
all of them, is enough. -/
def make : Nat → Bool → Nat → Assemble Item
  | 0, _, _ => throw .endless
  | fuel + 1, atOnce, index => do
    let s ← get
    match s.made.getD index none with
    | some item => return item
    | none =>
      if s.busy.contains index then return .scalar .null none
      let item ←
        match Container.ofKind? (s.nodes.kind index) with
        | none => scalar index
        | some empty => do
          let reference ← add empty
          if atOnce then
            modify fun s => { s with busy := index :: s.busy }
            fill (make fuel) true index reference
            modify fun s => { s with busy := s.busy.tail }
          else modify fun s => { s with waiting := s.waiting.push (index, reference) }
          pure (.container reference)
      modify fun s => { s with made := s.made.setIfInBounds index (some item) }
      return item

/-- Fills the containers that wait for it, from a position on. -/
def fillWaiting (bound : Nat) : Nat → Nat → Assemble Unit
  | 0, _ => return ()
  | fuel + 1, position => do
    match (← get).waiting[position]? with
    | none => return ()
    | some (index, reference) =>
      fill (make bound) false index reference
      fillWaiting bound fuel (position + 1)

end Assemble

end Stencil.Yaml

import Stencil.Yaml.Node

/-!
# Entries taken over

A mapping can take over the entries of another, or of several in a list: it has a key of the kind
`merge`, whose value says which. Taken over entries stand before the mapping's own, and of several
mappings the last stands first, so that where later entries win, the mapping's own win over all others
and of several mappings the first wins.

Mappings are settled one by one, as they are needed, and what a mapping takes over is settled before
it. A merge key is taken out of its mapping before that, so a mapping that takes over itself finds one
key less, and settling comes to an end.
-/

set_option autoImplicit false

namespace Stencil.Yaml

abbrev Nodes := Array Node

namespace Nodes

def kind (nodes : Nodes) (index : Nat) : Kind := (nodes.getD index default).kind

def entries (nodes : Nodes) (index : Nat) : List (Nat × Nat) :=
  match nodes[index]? with
  | some (.mapping _ entries _) => entries
  | _ => []

/-- Gives a mapping other entries, with or without some that are taken over. -/
def setEntries (index : Nat) (entries : List (Nat × Nat)) (merges : Bool) (nodes : Nodes) : Nodes :=
  match nodes[index]? with
  | some (.mapping kind _ merged) =>
    nodes.setIfInBounds index (.mapping kind entries (merged || merges))
  | _ => nodes

def setKind (kind : Kind) (index : Nat) (nodes : Nodes) : Nodes :=
  let node :=
    match nodes.getD index default with
    | .scalar _ text => Node.scalar kind text
    | .sequence _ items => .sequence kind items
    | .mapping _ entries merged => .mapping kind entries merged
  nodes.setIfInBounds index node

/-- The keys of a mapping that have a meaning of their own where a scalar is asked for are plain text
from now on. -/
def nameDefaults (index : Nat) (nodes : Nodes) : Nodes :=
  (nodes.entries index).foldl (fun nodes entry =>
    if nodes.kind entry.1 = .default then nodes.setKind .text entry.1 else nodes) nodes

def isMapping (nodes : Nodes) (index : Nat) : Bool :=
  match nodes[index]? with
  | some (.mapping _ _ _) => true
  | _ => false

/-- The mappings whose entries the value of a merge key stands for. -/
def sources (nodes : Nodes) (value : Nat) : Option (List Nat) :=
  match nodes[value]? with
  | some (.sequence _ items) => if items.all nodes.isMapping then some items else none
  | _ => if nodes.isMapping value then some [value] else none

/-- Settles a mapping, which has some taken over entries already. There may be one merge key only,
but those that gave nothing do not count. -/
def settleFrom (taken : List (Nat × Nat)) (index : Nat) : Nat → Nodes → Option Nodes
  | 0, _ => none
  | fuel + 1, nodes => do
    let nodes := nodes.nameDefaults index
    let entries := nodes.entries index
    match entries.findIdx? fun entry => nodes.kind entry.1 = .merge with
    | none =>
      if taken.isEmpty then return nodes
      else return nodes.setEntries index (taken ++ entries) true
    | some position =>
      guard taken.isEmpty
      let sources ← nodes.sources (entries.getD position (0, 0)).2
      let nodes := nodes.setEntries index (entries.eraseIdx position) false
      let (found, nodes) ← sources.foldlM (fun (found, nodes) source => do
        let nodes ← settleFrom [] source fuel nodes
        return (nodes.entries source :: found, nodes)) ([], nodes)
      settleFrom found.flatten index fuel nodes

/-- More than there are merge keys in a document. -/
def mergeBound (nodes : Nodes) : Nat :=
  nodes.foldl (fun count node =>
    match node with
    | .mapping _ entries _ => count + entries.length
    | _ => count) 1

/-- Settles a mapping. Every turn but the last takes a merge key out of a mapping. -/
def settle (index bound : Nat) (nodes : Nodes) : Option Nodes := settleFrom [] index (bound + 1) nodes

end Nodes

end Stencil.Yaml

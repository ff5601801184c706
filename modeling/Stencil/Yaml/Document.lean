import Stencil.Data.Members
import Stencil.Yaml.Assembly

/-!
# The data of a YAML document

The containers that the nodes of a document have been made into are the cells of a graph. What only
mattered for making them is left behind: a tuple is a list, two values that are no number are not
known to be one, and the members of a set stand as they are written.
-/

set_option autoImplicit false

namespace Stencil.Yaml

def Item.datum : Item → Datum Nat
  | .scalar value _ => .scalar value
  | .container reference => .container reference

def Container.cell : Container → Cell Nat
  | .list items => .list (items.map Item.datum)
  | .tuple items => .list (items.map Item.datum)
  | .mapping ordered entries =>
    .mapping (entries.map fun entry => (entry.1.literal, entry.2.datum)) ordered
  | .set members => .set (Literal.inWrittenOrder (members.map Key.literal))

structure Document where
  root : Datum Nat := .scalar .null
  cells : Array (Cell Nat) := #[]
  /-- The minor number of the version of the language. -/
  minor : Nat := currentMinor

def Document.graph (document : Document) : Graph Nat := .ofArray document.cells

/-- The data of the document with this root. -/
def Document.ofNodes (nodes : Nodes) (minor root : Nat) : Except Fault Document := do
  let bound := nodes.size + 1
  let start : Assembly :=
    { nodes, minor, made := Array.replicate nodes.size none, bound := nodes.mergeBound }
  let assemble : Assemble Item := do
    let item ← Assemble.make bound false root
    Assemble.fillWaiting bound bound 0
    return item
  let (item, assembly) ← assemble.run start
  return { root := item.datum, cells := assembly.containers.map Container.cell, minor }

/-- A way to read YAML: what a text denotes, in the version of the language with this minor number
unless the text gives another. -/
abbrev Reader := String → Nat → Except Fault Document

/-- The data that a text denotes; a text without a document denotes null. Nesting is followed however
deep it is. -/
def Document.ofText : Reader := fun text minor => do
  let table ← NodeTable.ofText minor text.toList
  match table.root with
  | none => return { minor := table.minor }
  | some root => ofNodes table.nodes table.minor root

end Stencil.Yaml

import Stencil.Data.Literal

/-!
# Data as a graph

A datum is a scalar or a reference to a container, and a container is looked into one level at a
time: a graph gives for each reference the container that it stands for. Nothing says that the
references lead anywhere new, so containers can be shared and can hold themselves, and nothing in
the library follows references further than a name of a template leads.
-/

set_option autoImplicit false

namespace Stencil

/-- A datum in a graph whose containers are known by references of type `ν`. -/
inductive Datum (ν : Type)
  | scalar (value : Scalar)
  | container (reference : ν)
deriving Repr

instance (ν : Type) : Inhabited (Datum ν) := ⟨.scalar .null⟩

inductive Cell (ν : Type)
  | list (items : List (Datum ν))
  /-- The flag says whether the order of the entries is part of what the mapping is. -/
  | mapping (entries : List (Literal × Datum ν)) (ordered : Bool := false)
  /-- Members in the order in which they are written; a template sees the text of the set only. -/
  | set (members : List Literal)
  /-- A thing with attributes, and the text that stands for the thing itself. -/
  | record (attributes : List (String × Datum ν)) (text : String)
deriving Repr

/-- What each reference stands for. -/
abbrev Graph (ν : Type) := ν → Cell ν

/-- The graph of a table of containers, known by their index; other indices are empty lists. -/
def Graph.ofArray (cells : Array (Cell Nat)) : Graph Nat := fun index => cells.getD index (.list [])

/-- Entries with a value set: in the place of the same key, otherwise at the end. -/
def Entries.set {α : Type} (key : Literal) (value : α) :
    List (Literal × α) → List (Literal × α)
  | [] => [(key, value)]
  | entry :: rest =>
    if entry.1.same key then (entry.1, value) :: rest else entry :: Entries.set key value rest

/-- Whether a container counts as true where only truth matters. -/
def Cell.holds {ν : Type} : Cell ν → Bool
  | .list items => !items.isEmpty
  | .mapping entries _ => !entries.isEmpty
  | .set members => !members.isEmpty
  | .record _ _ => true

/-- Whether a datum counts as true where only truth matters. -/
def Datum.holds {ν : Type} (graph : Graph ν) : Datum ν → Bool
  | .scalar value => value.holds
  | .container reference => (graph reference).holds

end Stencil

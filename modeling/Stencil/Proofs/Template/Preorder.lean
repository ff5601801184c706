import Stencil.Node

/-!
# Trees in pre-order

The nodes of a forest are listed with a stack of single nodes, and the list is the one that recursion
on the trees gives (`iterate_eq_preorderAll`). What holds of the list is then shown by recursion on the
trees, as here for the sequence of tags.
-/

set_option autoImplicit false

namespace Stencil

namespace Node

theorem preorderAll_eq_flatMap (depth : Int) (nodes : List Node) :
    preorderAll depth nodes = nodes.flatMap (preorder depth) := by
  induction nodes with
  | nil => rfl
  | cons node rest ih => rw [preorderAll, List.flatMap_cons, ih]

/-- A stack of trees is gone through tree by tree. -/
theorem iterateFrom_eq : (stack : List (Node × Int)) →
    iterateFrom stack = stack.flatMap fun entry => preorder entry.2 entry.1
  | [] => by rw [iterateFrom, List.flatMap_nil]
  | (⟨label, children⟩, depth) :: rest => by
    rw [iterateFrom, iterateFrom_eq, List.flatMap_append, List.flatMap_map, List.flatMap_cons,
      preorder, preorderAll_eq_flatMap, List.cons_append]
termination_by stack => countAll (stack.map Prod.fst)
decreasing_by simp [countAll, countAll_append, Function.comp_def, count_eq ⟨label, children⟩]

/-- **Going through a forest with a stack is going through it by recursion.** -/
theorem iterate_eq_preorderAll (nodes : List Node) : iterate nodes = preorderAll 0 nodes := by
  rw [iterate, iterateFrom_eq, List.flatMap_map, preorderAll_eq_flatMap]

end Node

/-- What the sequence of tags has for a node, if it is a tag. -/
def listedTag? (visited : Node × Int) : Option (Int × TagType × String) :=
  visited.1.tag?.map fun tag => (visited.2, tag.type, tag.name)

theorem Document.tagSequence_eq (document : Document) :
    document.tagSequence = (Node.preorderAll 0 document.nodes).filterMap listedTag? := by
  rw [tagSequence, Node.iterate_eq_preorderAll]
  rfl

end Stencil

import Stencil.Tag

/-!
# Documents as trees

A node is labelled as text, as a tag or as a root, and has a list of children. The reader only
gives children to the tags that begin a section, but a tree built by hand may have them under any
label, and everything that works on trees allows for that.

`preorder` lists the nodes of a forest with their depths by recursion on the tree; `iterate` lists
them with a stack of single nodes, so that the depth of nesting costs no native stack.
-/

set_option autoImplicit false

namespace Stencil

inductive Label
  | root
  | text (content : String) (position : Int)
  | tag (tag : Tag)
deriving DecidableEq, Repr

structure Node where
  label : Label
  children : List Node
deriving Repr

instance : Inhabited Node := ⟨⟨.root, []⟩⟩

namespace Node

def isText (node : Node) : Bool :=
  match node.label with
  | .text _ _ => true
  | _ => false

def tag? (node : Node) : Option Tag :=
  match node.label with
  | .tag tag => some tag
  | _ => none

def isSectionBegin (node : Node) : Bool := (node.tag?.map Tag.isSectionBegin).getD false

def isSectionEnd (node : Node) : Bool := (node.tag?.map Tag.isSectionEnd).getD false

def position (node : Node) : Int :=
  match node.label with
  | .root => 0
  | .text _ position => position
  | .tag tag => tag.position

def describe (node : Node) : String :=
  match node.label with
  | .root => "Node(ROOT, children=" ++ toString node.children.length ++ ")"
  | .text content position =>
    "Node(TEXT, " ++ Text.quoted content ++ ", pos=" ++ toString position ++ ")"
  | .tag tag => "Node(" ++ tag.describe ++ ", children=" ++ toString node.children.length ++ ")"

mutual

def count : Node → Nat
  | ⟨_, children⟩ => 1 + countAll children

def countAll : List Node → Nat
  | [] => 0
  | node :: rest => node.count + countAll rest

end

theorem count_pos (node : Node) : 0 < node.count := by
  cases node
  simp only [count]
  omega

theorem count_eq (node : Node) : node.count = 1 + countAll node.children := by
  cases node
  simp only [count]

theorem countAll_append (nodes others : List Node) :
    countAll (nodes ++ others) = countAll nodes + countAll others := by
  induction nodes with
  | nil => simp [countAll]
  | cons node rest ih => simp [countAll, ih, Nat.add_assoc]

mutual

/-- A tree in pre-order, each node with its depth. -/
def preorder (depth : Int) : Node → List (Node × Int)
  | ⟨label, children⟩ => (⟨label, children⟩, depth) :: preorderAll (depth + 1) children

/-- A forest in pre-order, each node with its depth. -/
def preorderAll (depth : Int) : List Node → List (Node × Int)
  | [] => []
  | node :: rest => preorder depth node ++ preorderAll depth rest

end

/-- The nodes of a stack of trees with their depths, each before what is under it. -/
def iterateFrom : List (Node × Int) → List (Node × Int)
  | [] => []
  | (node, depth) :: rest =>
    (node, depth) :: iterateFrom (node.children.map (fun child => (child, depth + 1)) ++ rest)
termination_by stack => countAll (stack.map Prod.fst)
decreasing_by
  simp [countAll, countAll_append, Function.comp_def, count_eq node]

/-- Every node of a forest in pre-order, with its depth; the roots have depth zero. -/
def iterate (nodes : List Node) : List (Node × Int) :=
  iterateFrom (nodes.map (fun node => (node, 0)))

end Node

/-- A template that has been read: its top-level nodes and the text that they were read from. -/
structure Document where
  nodes : List Node
  source : String
deriving Repr

namespace Document

def root (document : Document) : Node := ⟨.root, document.nodes⟩

/-- Depth, type and name of every tag in pre-order. -/
def tagSequence (document : Document) : List (Int × TagType × String) :=
  (Node.iterate document.nodes).filterMap fun visited =>
    visited.1.tag?.map fun tag => (visited.2, tag.type, tag.name)

def describe (document : Document) : String :=
  "Document(nodes=" ++ toString document.nodes.length ++ ")"

end Document

end Stencil

import Stencil.Walk.Plain

/-!
# Listings of a document

One line for each node in pre-order, indented by its depth: what a text node holds, or the name of
a tag between braces, whatever its delimiters were. Every label but a tag's is listed as text.
-/

set_option autoImplicit false

namespace Stencil.Listing

/-- What a node is listed as, without its indentation. -/
def body (node : Node) : List Char :=
  match node.label with
  | .tag tag => "TAG: ".toList ++ ['{', '{'] ++ tag.name.toList ++ ['}', '}']
  | .text content _ => "TXT: ".toList ++ content.toList
  | .root => "TXT: ".toList

def line (node : Node) (depth : Int) : String :=
  String.ofList (List.replicate depth.toNat ' ' ++ body node ++ ['\n'])

/-- Writes the lines of a forest one by one. -/
def write {σ ε : Type} (sink : String → EStateM ε σ Unit) (nodes : List Node) (state : σ) :
    Walk.Outcome σ ε :=
  let visit (node : Node) (depth : Int) : EStateM ε σ Walk.Control := do
    sink (line node depth)
    return .proceed
  Walk.walk visit nodes state

/-- The listing of a document as one text. -/
def text (document : Document) : String :=
  let sink (line : String) : EStateM Empty String Unit := modify (· ++ line)
  (write sink document.nodes "").state

end Stencil.Listing

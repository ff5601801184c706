import Stencil.Listing
import Stencil.Proofs.Template.Preorder
import Stencil.Proofs.Walk.Straight

/-!
# What a listing lists

There are three ways through a document: recursion on the trees, a stack of single nodes, and a walk
with its stack of frames. They meet the same nodes at the same depths in the same order, whatever the
nodes are and wherever they have children (`orders_agree`).

A listing is made by a walk and the sequence of tags by the stack of single nodes, so this is also what
makes the two agree. Both are read off one list, the `entries` of a document: the listing is what they
are written as, and the sequence of tags has the entries that are of tags.
-/

set_option autoImplicit false

namespace Stencil

namespace Listing

/-- What a listing says of one node: its depth, and the name of a tag or else a text. -/
inductive Entry
  | tag (depth : Int) (name : String)
  | text (depth : Int) (content : String)
deriving DecidableEq, Repr

/-- What is listed for a node at this depth. A root holds no text. -/
def entry (visited : Node × Int) : Entry :=
  match visited.1.label with
  | .tag tag => .tag visited.2 tag.name
  | .text content _ => .text visited.2 content
  | .root => .text visited.2 ""

namespace Entry

def indent (depth : Int) : String := String.ofList (List.replicate depth.toNat ' ')

/-- The line of an entry. -/
def written : Entry → String
  | .tag depth name => indent depth ++ "TAG: \x7b\x7b" ++ name ++ "\x7d\x7d\n"
  | .text depth content => indent depth ++ "TXT: " ++ content ++ "\n"

/-- Depth and name of an entry of a tag. -/
def tag? : Entry → Option (Int × String)
  | .tag depth name => some (depth, name)
  | .text _ _ => none

end Entry

theorem line_eq (visited : Node × Int) : line visited.1 visited.2 = (entry visited).written := by
  obtain ⟨⟨label, children⟩, depth⟩ := visited
  apply String.toList_inj.1
  cases label <;> simp [line, body, entry, Entry.written, Entry.indent]

/-- Lines are written one after the other. -/
theorem visitAll_append_line (visits : List (Node × Int)) (before : String) :
    Walk.visitAll (ε := Empty) (fun node depth => do
        modify (· ++ line node depth)
        return .proceed) visits before =
      .ok .completed (visits.foldl (fun text visited => text ++ line visited.1 visited.2) before) := by
  induction visits generalizing before with
  | nil => rfl
  | cons visited rest ih => exact ih (before ++ line visited.1 visited.2)

end Listing

namespace Document

open Listing

/-- The nodes of a document in pre-order, each as it is listed. -/
def entries (document : Document) : List Entry := (Node.preorderAll 0 document.nodes).map entry

theorem text_eq_join (document : Document) :
    Listing.text document = String.join (document.entries.map Entry.written) := by
  have hs : Walk.Straight (ε := Empty) (fun node depth => do
      modify (· ++ line node depth)
      return .proceed) := by
    intro node depth before control after h
    cases h
    rfl
  unfold Listing.text Listing.write
  dsimp only
  rw [Walk.walk_eq_visitAll hs, visitAll_append_line, entries, List.map_map, String.join,
    List.foldl_map]
  simp only [Function.comp_apply, ← line_eq]
  rfl

theorem filterMap_entries (document : Document) :
    document.entries.filterMap Entry.tag? =
      document.tagSequence.map fun listed => (listed.1, listed.2.2) := by
  rw [tagSequence_eq, entries, List.filterMap_map, List.map_filterMap]
  congr 1
  funext visited
  obtain ⟨⟨label, children⟩, depth⟩ := visited
  cases label <;> rfl

/-- **All ways through a document meet the same nodes at the same depths, in pre-order.** A stack of
single nodes does, and so does a walk whose visitor always proceeds. The listing has an entry for each
node in that order, and those of tags have depths and names as the sequence of tags has them. -/
theorem orders_agree {σ ε : Type} (document : Document)
    (visit : Node → Int → EStateM ε σ Walk.Control) (state : σ)
    (hv : ∀ node depth state, ∃ after, visit node depth state = .ok .proceed after) :
    Node.iterate document.nodes = Node.preorderAll 0 document.nodes ∧
      (∃ after, Walk.walk visit document.nodes state = ⟨.ok .completed, after⟩ ∧
        Walk.walk (Walk.noting visit) document.nodes (state, []) =
          ⟨.ok .completed, (after, Node.preorderAll 0 document.nodes)⟩) ∧
      Listing.text document = String.join (document.entries.map Entry.written) ∧
      document.entries.filterMap Entry.tag? =
        document.tagSequence.map fun listed => (listed.1, listed.2.2) := by
  -- a visitor that always proceeds never asks for a walk of its own, nor for an early end
  have hs : Walk.Straight visit := by
    intro node depth before control after h
    obtain ⟨reached, hreached⟩ := hv node depth before
    rw [h] at hreached
    cases hreached
    rfl
  obtain ⟨after, hafter, hrecord⟩ :=
    Walk.visitAll_noting hv (Node.preorderAll 0 document.nodes) [] state
  refine ⟨Node.iterate_eq_preorderAll document.nodes, ⟨after, ?_, ?_⟩, text_eq_join document,
    filterMap_entries document⟩
  · rw [Walk.walk_eq_visitAll hs, hafter]
    rfl
  · rw [Walk.walk_eq_visitAll (Walk.straight_noting hs), hrecord]
    rfl

/-- A document that no source reads as: there are nodes under a text and under a variable, and a root
below the root. -/
def handmade : Document :=
  ⟨[⟨.text "a" 0, [⟨.tag ⟨"b", .escaped, 0⟩, [⟨.root, []⟩]⟩]⟩, ⟨.tag ⟨"c", .comment, 0⟩, []⟩], ""⟩

/-- A visitor that counts, and never turns aside. -/
def counting (_ : Node) (_ : Int) : EStateM Empty Nat Walk.Control := fun count =>
  .ok .proceed (count + 1)

/-- There are four nodes at three depths, and a line for each. -/
theorem orders_agree_handmade :
    (∀ node depth count, ∃ after, counting node depth count = .ok .proceed after) ∧
      (Node.iterate handmade.nodes).map Prod.snd = [0, 1, 2, 0] ∧
      (∃ after, Walk.walk (Walk.noting counting) handmade.nodes (0, []) =
        ⟨.ok .completed, (after, Node.iterate handmade.nodes)⟩) ∧
      Listing.text handmade =
        "TXT: a\n TAG: \x7b\x7bb\x7d\x7d\n  TXT: \nTAG: \x7b\x7bc\x7d\x7d\n" ∧
      handmade.tagSequence = [(1, .escaped, "b"), (0, .comment, "c")] := by
  have hv : ∀ node depth count, ∃ after, counting node depth count = .ok .proceed after :=
    fun _ _ count => ⟨count + 1, rfl⟩
  obtain ⟨horder, ⟨after, _, hrecord⟩, htext, _⟩ := orders_agree handmade counting 0 hv
  rw [tagSequence, horder, htext]
  exact ⟨hv, rfl, ⟨after, hrecord⟩, by decide, rfl⟩

end Document

end Stencil

import Stencil.Proofs.Walk.Traversal
import Stencil.Walk.Plain

/-!
# Walks that go straight on

A visitor that answers every visit by proceeding sees all of a forest, each node once, and sees it in
pre-order. What such a walk comes to is then what its visits come to one after the other: the forest
can be made a list first (`walk_eq_visitAll`). A visit may still fail, and no other follows it then.

The stack of frames is gone from that statement. It is the rules for pieces of walks that take it away,
node by node: the list of a node is the node itself, the list of its children, and the list of its
siblings, and so is the walk.
-/

set_option autoImplicit false

namespace Stencil.Walk

variable {σ ε : Type}

/-- Every visit that is answered is answered by proceeding. -/
def Straight (visit : Node → Int → EStateM ε σ Control) : Prop :=
  ∀ ⦃node depth state control after⦄, visit node depth state = .ok control after →
    control = .proceed

/-- Visits that are made one after the other, up to the first that fails. -/
def visitAll (visit : Node → Int → EStateM ε σ Control) :
    List (Node × Int) → σ → EStateM.Result ε σ Ending
  | [], state => .ok .completed state
  | visited :: rest, state =>
    match visit visited.1 visited.2 state with
    | .ok _ after => visitAll visit rest after
    | .error error after => .error error after

/-- The same visitor with its visits on record. -/
def noting (visit : Node → Int → EStateM ε σ Control) (node : Node) (depth : Int) :
    EStateM ε (σ × List (Node × Int)) Control := fun whole =>
  match visit node depth whole.1 with
  | .ok control after => .ok control (after, whole.2 ++ [(node, depth)])
  | .error error after => .error error (after, whole.2 ++ [(node, depth)])

variable {visit : Node → Int → EStateM ε σ Control}

theorem visitAll_append (visits others : List (Node × Int)) (state : σ) :
    visitAll visit (visits ++ others) state =
      andThen (visitAll visit visits state) (visitAll visit others) := by
  induction visits generalizing state with
  | nil => rfl
  | cons visited rest ih =>
    rw [List.cons_append, visitAll, visitAll]
    cases visit visited.1 visited.2 state with
    | ok control after => exact ih after
    | error error after => rfl

/-- The nodes of a frame come to what their visits in pre-order come to. -/
theorem yields_visitAll (hs : Straight visit) (depth : Int) : (nodes : List Node) → (state : σ) →
    (Visitor.plain visit).Yields nodes depth state
      (visitAll visit (Node.preorderAll depth nodes) state)
  | [], state => Visitor.yields_nil depth state
  | ⟨label, children⟩ :: rest, state => by
    rw [Node.preorderAll, visitAll_append, Node.preorder]
    refine Visitor.yields_cons ?_ fun middle _ => yields_visitAll hs depth rest middle
    rw [visitAll]
    simp only [Visitor.plain, bind, EStateM.bind]
    cases hv : visit ⟨label, children⟩ depth state with
    | error error after => rfl
    | ok control after =>
      rw [hs hv]
      -- nothing is asked for but the walk over the children
      have hchildren : (Visitor.plain visit).Carries [⟨children, depth + 1, none⟩] after _ :=
        Visitor.carries_cons_hookless (yields_visitAll hs (depth + 1) children after)
          fun middle _ => Visitor.carries_nil middle
      rwa [andThen_completed] at hchildren

/-- **A walk that goes straight on makes its visits in pre-order.** -/
theorem walk_eq_visitAll (hs : Straight visit) (nodes : List Node) (state : σ) :
    walk visit nodes state = outcomeOf (visitAll visit (Node.preorderAll 0 nodes) state) :=
  Visitor.run_eq_of_ends _ (yields_visitAll hs 0 nodes state).ends

theorem straight_noting (hs : Straight visit) : Straight (noting visit) := by
  intro node depth whole control after h
  unfold noting at h
  split at h
  · next hv =>
    cases h
    exact hs hv
  · cases h

/-- The record of visits that all succeed is the list of what was to be visited. -/
theorem visitAll_noting (hv : ∀ node depth state, ∃ after, visit node depth state = .ok .proceed after)
    (visits before : List (Node × Int)) (state : σ) :
    ∃ after, visitAll visit visits state = .ok .completed after ∧
      visitAll (noting visit) visits (state, before) = .ok .completed (after, before ++ visits) := by
  induction visits generalizing before state with
  | nil => exact ⟨state, rfl, by rw [List.append_nil]; rfl⟩
  | cons visited rest ih =>
    obtain ⟨middle, hmiddle⟩ := hv visited.1 visited.2 state
    obtain ⟨after, hafter, hrecord⟩ := ih (before ++ [visited]) middle
    rw [List.append_assoc] at hrecord
    refine ⟨after, ?_, ?_⟩
    · rw [visitAll, hmiddle]
      exact hafter
    · rw [visitAll, noting, hmiddle]
      exact hrecord

end Stencil.Walk

import Stencil.Walk.Machine

/-!
# Walks that stay on the tree

A visitor that requests no further walks sees each node at most once, so its walk always ends: a
visited node leaves its list for good, and its children are fewer than it counts for.
-/

set_option autoImplicit false

namespace Stencil.Walk

variable {σ ε η : Type}

def Visitor.plain (visit : Node → Int → EStateM ε σ Control) : Visitor σ ε Empty where
  visit node depth := do return (← visit node depth, [])
  enter hook := nomatch hook
  leave hook := nomatch hook

/-- What a frame has still to do at most: four for each node, and a little for itself. -/
def Frame.weight (frame : Frame η) : Nat :=
  4 * Node.countAll frame.pending + if frame.entered then 2 else 3

/-- What a stack of frames has still to do at most. -/
def weight : List (Frame η) → Nat
  | [] => 0
  | frame :: outer => frame.weight + weight outer

theorem weight_cons (frame : Frame η) (outer : List (Frame η)) :
    weight (frame :: outer) = frame.weight + weight outer := rfl

/-- Each step of a plain walk leaves less to do. -/
theorem weight_lt_of_step {visit : Node → Int → EStateM ε σ Control}
    {machine next : Machine σ Empty}
    (turn : (Visitor.plain visit).step machine = .on next) :
    weight next.frames < weight machine.frames := by
  obtain ⟨frames, state⟩ := machine
  cases frames with
  | nil => simp [Visitor.step] at turn
  | cons frame outer =>
    obtain ⟨pending, depth, hook, entered⟩ := frame
    cases hook with
    | some hook => exact nomatch hook
    | none =>
      cases entered with
      | false =>
        simp only [Visitor.step, Visitor.enterHook] at turn
        cases turn
        simp [weight_cons, Frame.weight]
      | true =>
        cases pending with
        | nil =>
          simp only [Visitor.step, Visitor.leaveHook] at turn
          cases turn
          simp [weight_cons, Frame.weight]
        | cons node rest =>
          have hc := Node.count_eq node
          simp only [Visitor.step, Visitor.plain, bind, EStateM.bind, pure, EStateM.pure,
            if_true] at turn
          cases hv : visit node depth state with
          | error error state => simp [hv] at turn
          | ok control state =>
            simp only [hv] at turn
            cases control <;> simp only [Turn.on.injEq, reduceCtorEq] at turn
            · subst turn
              simp only [Control.frames, childFrame, List.map_nil, List.cons_append,
                List.nil_append, weight_cons, Frame.weight, Node.countAll]
              simp
              omega
            · subst turn
              simp only [Control.frames, List.map_nil, List.nil_append, weight_cons,
                Frame.weight, Node.countAll]
              simp
              omega

theorem Visitor.plain_halts (visit : Node → Int → EStateM ε σ Control)
    (machine : Machine σ Empty) : (Visitor.plain visit).Halts machine :=
  Subrelation.accessible (fun leads => weight_lt_of_step leads)
    ((measure fun m : Machine σ Empty => weight m.frames).wf.apply machine)

/-- Walks a forest with a visitor that only looks at nodes. -/
def walk (visit : Node → Int → EStateM ε σ Control) (nodes : List Node) (state : σ) :
    Outcome σ ε :=
  (Visitor.plain visit).run (Visitor.start nodes state) (Visitor.plain_halts visit _)

end Stencil.Walk

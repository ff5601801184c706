import Stencil.Node

/-!
# Walking a document with a stack

A walk visits the nodes of a forest in pre-order. The visitor decides about each node: proceed into
its children, skip them, or stop the whole walk. It may also request further walks over any nodes;
these run after the children of the node and before its next sibling, in the order in which they
were requested. A request can carry a hook, which is entered before the first of its nodes and left
after the last.

Nothing here recurses on the depth of nesting. What is still to be done is a stack of frames, each
a rest of a list of nodes, and `Visitor.step` does one thing: enter a frame, leave a finished one,
or visit one node. A walk that is cut short, by the visitor's verdict or by an error, is unwound:
the hooks of the frames that were entered are left, innermost first.

Requests can make a walk endless, so a walk is run either for a number of steps (`runFor`) or with
a proof that its steps end (`run`); the two agree.
-/

set_option autoImplicit false

namespace Stencil.Walk

/-- What a visitor decides about a node. -/
inductive Control
  | proceed
  | skip
  | stop
deriving DecidableEq, Repr

/-- How a walk ended, if no error ended it. -/
inductive Ending
  | completed
  | stopped
deriving DecidableEq, Repr

/-- A walk that a visitor asks for. -/
structure Request (η : Type) where
  nodes : List Node
  depth : Int
  hook : Option η

/-- What a walk does to a state `σ`; each action can fail with an `ε`, and keeps what it had done
to the state until then. -/
structure Visitor (σ ε η : Type) where
  visit : Node → Int → EStateM ε σ (Control × List (Request η))
  enter : η → EStateM ε σ Unit
  leave : η → EStateM ε σ Unit

/-- A list of nodes that is being walked. -/
structure Frame (η : Type) where
  pending : List Node
  depth : Int
  hook : Option η
  entered : Bool

def Request.frame {η : Type} (request : Request η) : Frame η :=
  ⟨request.nodes, request.depth, request.hook, false⟩

/-- The frame of the children of a node. -/
def childFrame {η : Type} (node : Node) (depth : Int) : Frame η :=
  ⟨node.children, depth + 1, none, false⟩

/-- The frames that a visit puts on the stack, innermost first. -/
def Control.frames {η : Type} (control : Control) (node : Node) (depth : Int)
    (requests : List (Request η)) : List (Frame η) :=
  match control with
  | .proceed => childFrame node depth :: requests.map Request.frame
  | .skip => requests.map Request.frame
  | .stop => []

/-- A walk in progress: its frames, innermost first, and the state. -/
structure Machine (σ η : Type) where
  frames : List (Frame η)
  state : σ

/-- What one step leads to. -/
inductive Turn (σ ε η : Type)
  | on (machine : Machine σ η)
  /-- The walk is over; the frames are those that were not left yet. -/
  | off (verdict : Except ε Ending) (machine : Machine σ η)

/-- What came of a walk. -/
structure Outcome (σ ε : Type) where
  verdict : Except ε Ending
  state : σ

namespace Visitor

variable {σ ε η : Type}

/-- Enters the hook of a frame, if it has one. -/
def enterHook (visitor : Visitor σ ε η) : Option η → EStateM ε σ Unit
  | none => pure ()
  | some hook => visitor.enter hook

/-- Leaves the hook of a frame, if it has one. -/
def leaveHook (visitor : Visitor σ ε η) : Option η → EStateM ε σ Unit
  | none => pure ()
  | some hook => visitor.leave hook

def step (visitor : Visitor σ ε η) (machine : Machine σ η) : Turn σ ε η :=
  match machine.frames with
  | [] => .off (.ok .completed) machine
  | frame :: outer =>
    if frame.entered then
      match frame.pending with
      | [] =>
        match visitor.leaveHook frame.hook machine.state with
        | .ok _ state => .on ⟨outer, state⟩
        | .error error state => .off (.error error) ⟨outer, state⟩
      | node :: rest =>
        let waiting := { frame with pending := rest } :: outer
        match visitor.visit node frame.depth machine.state with
        | .ok (.stop, _) state => .off (.ok .stopped) ⟨waiting, state⟩
        | .ok (control, requests) state =>
          .on ⟨control.frames node frame.depth requests ++ waiting, state⟩
        | .error error state => .off (.error error) ⟨waiting, state⟩
    else
      match visitor.enterHook frame.hook machine.state with
      | .ok _ state => .on ⟨{ frame with entered := true } :: outer, state⟩
      | .error error state => .off (.error error) ⟨frame :: outer, state⟩

/-- Leaves the frames that were entered, innermost first. -/
def unwind (visitor : Visitor σ ε η) : List (Frame η) → EStateM ε σ Unit
  | [] => pure ()
  | frame :: outer => do
    if frame.entered then visitor.leaveHook frame.hook
    visitor.unwind outer

/-- Ends a walk: what is left of it is unwound, and an error on the way out takes the place of the
verdict. -/
def finish (visitor : Visitor σ ε η) (verdict : Except ε Ending) (machine : Machine σ η) :
    Outcome σ ε :=
  match visitor.unwind machine.frames machine.state with
  | .ok _ state => ⟨verdict, state⟩
  | .error error state => ⟨.error error, state⟩

/-- Runs a walk for at most so many steps. -/
def runFor (visitor : Visitor σ ε η) : Nat → Machine σ η → Option (Outcome σ ε)
  | 0, _ => none
  | steps + 1, machine =>
    match visitor.step machine with
    | .on next => visitor.runFor steps next
    | .off verdict last => some (visitor.finish verdict last)

/-- One walk in progress is the next step of another. -/
def Leads (visitor : Visitor σ ε η) (next machine : Machine σ η) : Prop :=
  visitor.step machine = .on next

/-- A walk whose steps come to an end. -/
abbrev Halts (visitor : Visitor σ ε η) (machine : Machine σ η) : Prop :=
  Acc visitor.Leads machine

/-- The walks in progress that halt, each above its next step. -/
instance (visitor : Visitor σ ε η) :
    WellFoundedRelation { machine : Machine σ η // visitor.Halts machine } where
  rel next machine := visitor.Leads next.1 machine.1
  wf := by
    refine ⟨fun ⟨machine, halts⟩ => ?_⟩
    induction halts with
    | intro machine _ ih => exact ⟨_, fun next leads => ih next.1 leads⟩

/-- Runs a walk to its end. -/
def run (visitor : Visitor σ ε η) (machine : Machine σ η) (halts : visitor.Halts machine) :
    Outcome σ ε :=
  match turn : visitor.step machine with
  | .on next => visitor.run next (halts.inv turn)
  | .off verdict last => visitor.finish verdict last
termination_by (⟨machine, halts⟩ : { machine : Machine σ η // visitor.Halts machine })
decreasing_by exact turn

/-- A walk over the nodes of a forest that has not started. -/
def start (nodes : List Node) (state : σ) : Machine σ η := ⟨[⟨nodes, 0, none, false⟩], state⟩

/-- A walk that is over has no next step. -/
theorem halts_of_off {visitor : Visitor σ ε η} {machine last : Machine σ η}
    {verdict : Except ε Ending} (h : visitor.step machine = .off verdict last) :
    visitor.Halts machine :=
  ⟨_, fun next leads => by simp [Leads, h] at leads⟩

theorem halts_of_on {visitor : Visitor σ ε η} {machine next : Machine σ η}
    (h : visitor.step machine = .on next) (halts : visitor.Halts next) :
    visitor.Halts machine :=
  ⟨_, fun other leads => by
    have : next = other := by simpa [Leads, h] using leads
    exact this ▸ halts⟩

theorem run_of_on {visitor : Visitor σ ε η} {machine next : Machine σ η}
    (turn : visitor.step machine = .on next) (halts : visitor.Halts machine) :
    visitor.run machine halts = visitor.run next (halts.inv turn) := by
  rw [run]
  split
  · next other h =>
    obtain rfl : next = other := by simpa [turn] using h
    rfl
  · next h => simp [turn] at h

theorem run_of_off {visitor : Visitor σ ε η} {machine last : Machine σ η}
    {verdict : Except ε Ending} (turn : visitor.step machine = .off verdict last)
    (halts : visitor.Halts machine) :
    visitor.run machine halts = visitor.finish verdict last := by
  rw [run]
  split
  · next h => simp [turn] at h
  · next other rest h =>
    obtain ⟨rfl, rfl⟩ : verdict = other ∧ last = rest := by simpa [turn] using h
    rfl

/-- A walk that halts does so in some number of steps, with the same outcome. -/
theorem exists_runFor_eq_some (visitor : Visitor σ ε η) (machine : Machine σ η)
    (halts : visitor.Halts machine) :
    ∃ steps, visitor.runFor steps machine = some (visitor.run machine halts) := by
  induction halts with
  | intro machine h ih =>
    cases turn : visitor.step machine with
    | on next =>
      obtain ⟨steps, hs⟩ := ih next turn
      exact ⟨steps + 1, by simp only [runFor, turn]; rw [run_of_on turn]; exact hs⟩
    | off verdict last =>
      exact ⟨1, by simp only [runFor, turn]; rw [run_of_off turn]⟩

/-- A walk that ends within some number of steps halts. -/
theorem halts_of_runFor {visitor : Visitor σ ε η} {steps : Nat} {machine : Machine σ η}
    {outcome : Outcome σ ε} (h : visitor.runFor steps machine = some outcome) :
    visitor.Halts machine := by
  induction steps generalizing machine with
  | zero => simp [runFor] at h
  | succ steps ih =>
    rw [runFor] at h
    split at h
    · next next turn => exact halts_of_on turn (ih h)
    · next turn => exact halts_of_off turn

end Visitor

end Stencil.Walk

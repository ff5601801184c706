import Stencil.Walk.Machine

/-!
# Walkers

A walker is made once and used for any number of walks. Between two of them it keeps a stack of frames
and a queue of walks that it was asked for, and both may hold something when a walk begins: anybody can
ask for a walk at any time. Only what is asked for during a visit is heeded. The queue is emptied before
each visit, and what the visit has put there is taken over when it has ended, unless it stopped the walk
or failed. The stack is replaced when a walk begins, and it is taken down when the walk ends, frame by
frame; after that the queue is emptied, too. If a hook fails while the stack is taken down, the rest of
the stack and the queue stay as they are.

The walk itself is that of a visitor that acts on the queue as part of its state
(`Callbacks.visitor`).
-/

set_option autoImplicit false

namespace Stencil.Walk

structure Walker (η : Type) where
  /-- Innermost first. -/
  frames : List (Frame η)
  /-- In the order in which they were asked for. -/
  queued : List (Request η)

namespace Walker

variable {η : Type}

def new : Walker η := ⟨[], []⟩

/-- Asks for a walk. -/
def descend (walker : Walker η) (request : Request η) : Walker η :=
  { walker with queued := walker.queued ++ [request] }

end Walker

/-- What a walker calls. Each call acts on a state and on the queue of the walker. -/
structure Callbacks (σ ε η : Type) where
  visit : Node → Int → EStateM ε (σ × List (Request η)) Control
  enter : η → EStateM ε (σ × List (Request η)) Unit
  leave : η → EStateM ε (σ × List (Request η)) Unit

/-- What a walker gives back: how the walk ended, the state, and the walker itself. -/
structure Returned (σ ε η : Type) where
  verdict : Except ε Ending
  state : σ
  walker : Walker η

namespace Visitor

variable {σ ε η : Type}

/-- Takes at most so many steps, up to the end of the walk, and leaves its frames as they are then. -/
def endFor (visitor : Visitor σ ε η) : Nat → Machine σ η → Option (Except ε Ending × Machine σ η)
  | 0, _ => none
  | steps + 1, machine =>
    match visitor.step machine with
    | .on next => visitor.endFor steps next
    | .off verdict last => some (verdict, last)

/-- Takes frames down, innermost first, until a hook fails. -/
def release (visitor : Visitor σ ε η) : List (Frame η) → σ → Except ε Unit × Machine σ η
  | [], state => (.ok (), ⟨[], state⟩)
  | frame :: outer, state =>
    if frame.entered then
      match visitor.leaveHook frame.hook state with
      | .ok _ left => visitor.release outer left
      | .error error left => (.error error, ⟨outer, left⟩)
    else visitor.release outer state

/-- Taking frames down is unwinding them. -/
theorem unwind_eq_release (visitor : Visitor σ ε η) (frames : List (Frame η)) (state : σ) :
    visitor.unwind frames state =
      match visitor.release frames state with
      | (.ok _, rest) => .ok () rest.state
      | (.error error, rest) => .error error rest.state := by
  induction frames generalizing state with
  | nil => rfl
  | cons frame outer ih =>
    simp only [unwind, release]
    split
    · simp only [bind, EStateM.bind]
      cases visitor.leaveHook frame.hook state with
      | ok _ left => exact ih left
      | error error left => rfl
    · exact ih state

/-- A run is the steps up to the end of the walk, and the end. -/
theorem runFor_eq_endFor (visitor : Visitor σ ε η) (steps : Nat) (machine : Machine σ η) :
    visitor.runFor steps machine =
      (visitor.endFor steps machine).map fun ended => visitor.finish ended.1 ended.2 := by
  induction steps generalizing machine with
  | zero => rfl
  | succ steps ih =>
    rw [runFor, endFor]
    cases visitor.step machine with
    | on next => exact ih next
    | off verdict last => rfl

end Visitor

namespace Callbacks

variable {σ ε η : Type}

/-- The calls as they are made during a walk: a visit begins with an empty queue, and what it has put
there is taken over. -/
def visitor (callbacks : Callbacks σ ε η) : Visitor (σ × List (Request η)) ε η where
  visit node depth whole :=
    match callbacks.visit node depth (whole.1, []) with
    | .ok .stop after => .ok (.stop, []) after
    | .ok control after => .ok (control, after.2) (after.1, [])
    | .error error after => .error error after
  enter := callbacks.enter
  leave := callbacks.leave

/-- Takes down what is left of a walk, and gives the walker back. -/
def settle (callbacks : Callbacks σ ε η) (verdict : Except ε Ending)
    (last : Machine (σ × List (Request η)) η) : Returned σ ε η :=
  match callbacks.visitor.release last.frames last.state with
  | (.ok _, rest) => ⟨verdict, rest.state.1, ⟨rest.frames, []⟩⟩
  | (.error error, rest) => ⟨.error error, rest.state.1, ⟨rest.frames, rest.state.2⟩⟩

/-- Walks a forest with this walker, for at most so many steps. -/
def runFor (callbacks : Callbacks σ ε η) (steps : Nat) (walker : Walker η) (nodes : List Node)
    (state : σ) : Option (Returned σ ε η) :=
  (callbacks.visitor.endFor steps (Visitor.start nodes (state, walker.queued))).map fun ended =>
    callbacks.settle ended.1 ended.2

/-- A walker walks as its visitor does. -/
theorem visitor_runFor (callbacks : Callbacks σ ε η) (steps : Nat) (walker : Walker η)
    (nodes : List Node) (state : σ) :
    ((callbacks.visitor.runFor steps (Visitor.start nodes (state, walker.queued))).map fun outcome =>
        (outcome.verdict, outcome.state.1)) =
      (callbacks.runFor steps walker nodes state).map fun returned =>
        (returned.verdict, returned.state) := by
  rw [Visitor.runFor_eq_endFor, runFor, Option.map_map, Option.map_map]
  congr 1
  funext ended
  simp only [Function.comp_apply, Visitor.finish, settle, Visitor.unwind_eq_release]
  match callbacks.visitor.release ended.2.frames ended.2.state with
  | (.ok _, _) => rfl
  | (.error _, _) => rfl

end Callbacks

end Stencil.Walk

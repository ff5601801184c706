import Stencil.Walk.Machine

/-!
# Walks piece by piece

A walk runs on a stack of frames, and what one frame does is spread over many steps. This file puts
the steps together again: it says what it means that *the nodes of a frame* come to a result, or that
*a list of requested walks* does, whatever waits on the stack below. Both are statements about the
machine as it is, so nothing has to be assumed about the visitor, and a piece may also come to a bad
end.

The rules at the end are the ones that a recursive traversal would be written by: no nodes are done
at once; a node is visited, then come the walks that the visit asks for, then its siblings; a
requested walk is entered, its nodes are walked, and it is left. Whoever has a recursive definition
with these clauses has, by these rules, the outcome of the machine.

## Why a result and not an outcome

A piece that is cut short is not the end of the walk: what is below it on the stack has still to be
unwound. `Resumes` says how the walk goes on from a result, and `finish_left` is where unwinding a
frame and leaving it turn out to be the same thing.
-/

set_option autoImplicit false

namespace Stencil.Walk

variable {σ ε η α : Type}

/-- The state that an action ends in, however it ends. -/
def stateOf : EStateM.Result ε σ α → σ
  | .ok _ state => state
  | .error _ state => state

/-- The same result in another state. -/
def withState (state : σ) : EStateM.Result ε σ α → EStateM.Result ε σ α
  | .ok answer _ => .ok answer state
  | .error error _ => .error error state

/-- A result as the outcome of a walk that is all over with it. -/
def outcomeOf : EStateM.Result ε σ Ending → Outcome σ ε
  | .ok ending state => ⟨.ok ending, state⟩
  | .error error state => ⟨.error error, state⟩

/-- One piece of a walk and then the next, which is only come to if the first is completed. -/
def andThen (first : EStateM.Result ε σ Ending) (next : σ → EStateM.Result ε σ Ending) :
    EStateM.Result ε σ Ending :=
  match first with
  | .ok .completed state => next state
  | .ok .stopped state => .ok .stopped state
  | .error error state => .error error state

/-- The walks that a visit leads to, in order: over the children of the node, if it goes on with
them, and then those that were requested. -/
def Control.walks (control : Control) (node : Node) (depth : Int) (requests : List (Request η)) :
    List (Request η) :=
  match control with
  | .proceed => ⟨node.children, depth + 1, none⟩ :: requests
  | .skip => requests
  | .stop => []

theorem frames_eq_map_walks (control : Control) (node : Node) (depth : Int)
    (requests : List (Request η)) :
    control.frames node depth requests =
      (control.walks node depth requests).map Request.frame := by
  cases control <;> rfl

@[simp] theorem withState_stateOf (result : EStateM.Result ε σ α) :
    withState (stateOf result) result = result := by
  cases result <;> rfl

@[simp] theorem stateOf_withState (state : σ) (result : EStateM.Result ε σ α) :
    stateOf (withState state result) = state := by
  cases result <;> rfl

@[simp] theorem withState_withState (state other : σ) (result : EStateM.Result ε σ α) :
    withState state (withState other result) = withState state result := by
  cases result <;> rfl

theorem andThen_completed (result : EStateM.Result ε σ Ending) :
    andThen result (.ok .completed) = result := by
  match result with
  | .ok .completed _ | .ok .stopped _ | .error _ _ => rfl

namespace Visitor

/-! ## Outcomes -/

/-- A walk in progress ends in some number of steps, with this outcome. -/
def Ends (visitor : Visitor σ ε η) (machine : Machine σ η) (outcome : Outcome σ ε) : Prop :=
  ∃ steps, visitor.runFor steps machine = some outcome

variable {visitor : Visitor σ ε η}

theorem Ends.on {machine next : Machine σ η} {outcome : Outcome σ ε}
    (turn : visitor.step machine = .on next) (ends : visitor.Ends next outcome) :
    visitor.Ends machine outcome := by
  obtain ⟨steps, hs⟩ := ends
  exact ⟨steps + 1, by rw [runFor, turn]; exact hs⟩

theorem Ends.off {machine last : Machine σ η} {verdict : Except ε Ending}
    (turn : visitor.step machine = .off verdict last) :
    visitor.Ends machine (visitor.finish verdict last) :=
  ⟨1, by rw [runFor, turn]⟩

theorem run_eq_of_ends {machine : Machine σ η} {outcome : Outcome σ ε}
    (halts : visitor.Halts machine) (ends : visitor.Ends machine outcome) :
    visitor.run machine halts = outcome := by
  obtain ⟨steps, hs⟩ := ends
  induction steps generalizing machine with
  | zero => simp [runFor] at hs
  | succ steps ih =>
    rw [runFor] at hs
    split at hs
    · next next turn =>
      rw [run_of_on turn halts]
      exact ih (halts.inv turn) hs
    · next verdict last turn =>
      rw [run_of_off turn halts]
      exact Option.some.inj hs

/-! ## Unwinding -/

theorem finish_pending (verdict : Except ε Ending) (nodes others : List Node) (depth : Int)
    (hook : Option η) (outer : List (Frame η)) (state : σ) :
    visitor.finish verdict ⟨⟨nodes, depth, hook, true⟩ :: outer, state⟩ =
      visitor.finish verdict ⟨⟨others, depth, hook, true⟩ :: outer, state⟩ := rfl

theorem finish_waiting (verdict : Except ε Ending) (requests : List (Request η))
    (outer : List (Frame η)) (state : σ) :
    visitor.finish verdict ⟨requests.map Request.frame ++ outer, state⟩ =
      visitor.finish verdict ⟨outer, state⟩ := by
  induction requests with
  | nil => rfl
  | cons request rest ih =>
    rw [← ih]
    rfl

/-- Unwinding a frame that was entered is leaving it and then unwinding the rest. -/
theorem finish_left {verdict : Except ε Ending} {nodes : List Node} {depth : Int}
    {hook : Option η} {outer : List (Frame η)} {state left : σ}
    (hl : visitor.leaveHook hook state = .ok () left) :
    visitor.finish verdict ⟨⟨nodes, depth, hook, true⟩ :: outer, state⟩ =
      visitor.finish verdict ⟨outer, left⟩ := by
  simp only [finish, unwind, if_true, bind, EStateM.bind, hl]

/-! ## Results of pieces -/

/-- The walk with these frames left has this outcome, once the piece before them has come to this
result. -/
def Resumes (visitor : Visitor σ ε η) (frames : List (Frame η)) (outcome : Outcome σ ε) :
    EStateM.Result ε σ Ending → Prop
  | .ok .completed state => visitor.Ends ⟨frames, state⟩ outcome
  | .ok .stopped state => outcome = visitor.finish (.ok .stopped) ⟨frames, state⟩
  | .error error state => outcome = visitor.finish (.error error) ⟨frames, state⟩

/-- The nodes of a frame that has been entered come to this result, whatever is below it. -/
def Yields (visitor : Visitor σ ε η) (nodes : List Node) (depth : Int) (state : σ)
    (result : EStateM.Result ε σ Ending) : Prop :=
  ∀ hook outer outcome, visitor.Resumes (⟨[], depth, hook, true⟩ :: outer) outcome result →
    visitor.Ends ⟨⟨nodes, depth, hook, true⟩ :: outer, state⟩ outcome

/-- Requested walks, one after the other, come to this result, whatever is below them. -/
def Carries (visitor : Visitor σ ε η) (requests : List (Request η)) (state : σ)
    (result : EStateM.Result ε σ Ending) : Prop :=
  ∀ outer outcome, visitor.Resumes outer outcome result →
    visitor.Ends ⟨requests.map Request.frame ++ outer, state⟩ outcome

/-- What a visit of the node answers comes to this result, with all the walks that it asks for. -/
def Asks (visitor : Visitor σ ε η) (node : Node) (depth : Int)
    (answer : EStateM.Result ε σ (Control × List (Request η)))
    (result : EStateM.Result ε σ Ending) : Prop :=
  match answer with
  | .ok (.stop, _) state => result = .ok .stopped state
  | .ok (control, requests) state => visitor.Carries (control.walks node depth requests) state result
  | .error error state => result = .error error state

theorem asks_ok {node : Node} {depth : Int} {control : Control} {requests : List (Request η)}
    {state : σ} {result : EStateM.Result ε σ Ending} (hc : control ≠ .stop) :
    visitor.Asks node depth (.ok (control, requests) state) result ↔
      visitor.Carries (control.walks node depth requests) state result := by
  cases control with
  | proceed | skip => exact Iff.rfl
  | stop => exact absurd rfl hc

/-- The frames may be changed as long as unwinding does not show it, if the walk goes on the same way
from a completed piece. -/
theorem Resumes.andThen {frames others : List (Frame η)} {outcome : Outcome σ ε}
    {first : EStateM.Result ε σ Ending} {next : σ → EStateM.Result ε σ Ending}
    (h : visitor.Resumes frames outcome (Walk.andThen first next))
    (hnext : ∀ state, first = .ok .completed state →
      visitor.Resumes frames outcome (next state) → visitor.Ends ⟨others, state⟩ outcome)
    (heq : ∀ verdict, visitor.finish verdict ⟨frames, stateOf first⟩ =
      visitor.finish verdict ⟨others, stateOf first⟩) :
    visitor.Resumes others outcome first := by
  match first with
  | .ok .completed state => exact hnext state rfl h
  | .ok .stopped state => exact Eq.trans h (heq _)
  | .error error state => exact Eq.trans h (heq _)

/-! ## The rules -/

theorem yields_nil (depth : Int) (state : σ) :
    visitor.Yields [] depth state (.ok .completed state) :=
  fun _ _ _ h => h

/-- A node is visited, then the walks that it leads to are carried out, then come its siblings. -/
theorem yields_cons {node : Node} {rest : List Node} {depth : Int} {state : σ}
    {walked : EStateM.Result ε σ Ending} {next : σ → EStateM.Result ε σ Ending}
    (hw : visitor.Asks node depth (visitor.visit node depth state) walked)
    (hn : ∀ middle, walked = .ok .completed middle →
      visitor.Yields rest depth middle (next middle)) :
    visitor.Yields (node :: rest) depth state (andThen walked next) := by
  intro hook outer outcome h
  -- a visit that ends the walk leaves siblings pending, which unwinding does not see
  cases hv : visitor.visit node depth state with
  | error error after =>
    rw [hv] at hw
    subst hw
    rw [show outcome = _ from h, finish_pending _ _ rest]
    exact Ends.off (by simp only [step, if_true, hv])
  | ok answer after =>
    rw [hv] at hw
    obtain ⟨control, requests⟩ := answer
    by_cases hc : control = .stop
    · subst hc
      rw [show walked = _ from hw] at h
      rw [show outcome = _ from h, finish_pending _ _ rest]
      exact Ends.off (by simp only [step, if_true, hv])
    · have turn : visitor.step ⟨⟨node :: rest, depth, hook, true⟩ :: outer, state⟩ =
          .on ⟨control.frames node depth requests ++ ⟨rest, depth, hook, true⟩ :: outer,
            after⟩ := by
        simp only [step, if_true, hv]
      refine .on turn ?_
      rw [frames_eq_map_walks]
      refine (asks_ok hc).1 hw _ outcome (h.andThen (fun middle hm hrest => ?_) fun verdict => ?_)
      · exact hn middle hm hook outer outcome hrest
      · exact finish_pending verdict [] rest depth hook outer _

theorem carries_nil (state : σ) : visitor.Carries [] state (.ok .completed state) :=
  fun _ _ h => h

theorem carries_cons_of_error {request : Request η} {rest : List (Request η)} {state after : σ}
    {error : ε} (he : visitor.enterHook request.hook state = .error error after) :
    visitor.Carries (request :: rest) state (.error error after) := by
  intro outer outcome h
  -- the frame that was refused has not been entered, so it is dropped with those behind it
  rw [Resumes, ← finish_waiting _ (request :: rest)] at h
  rw [h]
  exact Ends.off (by simp [step, Request.frame, he])

/-- A requested walk is entered, its nodes are walked, and it is left however that went; then come
the other walks. -/
theorem carries_cons {request : Request η} {rest : List (Request η)} {state entered left : σ}
    {walked : EStateM.Result ε σ Ending} {next : σ → EStateM.Result ε σ Ending}
    (he : visitor.enterHook request.hook state = .ok () entered)
    (hw : visitor.Yields request.nodes request.depth entered walked)
    (hl : visitor.leaveHook request.hook (stateOf walked) = .ok () left)
    (hn : (∃ middle, walked = .ok .completed middle) →
      visitor.Carries rest left (next left)) :
    visitor.Carries (request :: rest) state (andThen (withState left walked) next) := by
  intro outer outcome h
  have turn : visitor.step ⟨(request :: rest).map Request.frame ++ outer, state⟩ =
      .on ⟨⟨request.nodes, request.depth, request.hook, true⟩ ::
        (rest.map Request.frame ++ outer), entered⟩ := by
    simp [step, Request.frame, he]
  refine .on turn (hw _ _ outcome ?_)
  -- however the nodes came out, the frame of the request is left, and the rest is as below it
  match walked with
  | .ok .completed middle =>
    have hl : visitor.leaveHook request.hook middle = .ok () left := hl
    have turn : visitor.step ⟨⟨[], request.depth, request.hook, true⟩ ::
        (rest.map Request.frame ++ outer), middle⟩ =
        .on ⟨rest.map Request.frame ++ outer, left⟩ := by
      simp only [step, if_true, hl]
    exact .on turn (hn ⟨middle, rfl⟩ outer outcome h)
  | .ok .stopped middle =>
    have hl : visitor.leaveHook request.hook middle = .ok () left := hl
    rw [Resumes, finish_left hl, finish_waiting]
    exact h
  | .error error middle =>
    have hl : visitor.leaveHook request.hook middle = .ok () left := hl
    rw [Resumes, finish_left hl, finish_waiting]
    exact h

theorem carries_singleton {nodes : List Node} {depth : Int} {hook : Option η}
    {state entered left : σ} {walked : EStateM.Result ε σ Ending}
    (he : visitor.enterHook hook state = .ok () entered)
    (hw : visitor.Yields nodes depth entered walked)
    (hl : visitor.leaveHook hook (stateOf walked) = .ok () left) :
    visitor.Carries [⟨nodes, depth, hook⟩] state (withState left walked) := by
  rw [← andThen_completed (withState left walked)]
  exact carries_cons he hw hl fun _ => carries_nil left

theorem carries_cons_hookless {nodes : List Node} {depth : Int} {rest : List (Request η)}
    {state : σ} {walked : EStateM.Result ε σ Ending} {next : σ → EStateM.Result ε σ Ending}
    (hw : visitor.Yields nodes depth state walked)
    (hn : ∀ middle, walked = .ok .completed middle → visitor.Carries rest middle (next middle)) :
    visitor.Carries (⟨nodes, depth, none⟩ :: rest) state (andThen walked next) := by
  have hrest : (∃ middle, walked = .ok .completed middle) →
      visitor.Carries rest (stateOf walked) (next (stateOf walked)) := by
    rintro ⟨middle, hm⟩
    rw [hm]
    exact hn middle hm
  have enter : visitor.enterHook none state = .ok () state := rfl
  have leave : visitor.leaveHook none (stateOf walked) = .ok () (stateOf walked) := rfl
  rw [← withState_stateOf walked]
  exact carries_cons enter hw leave hrest

theorem Yields.ends {nodes : List Node} {state : σ} {result : EStateM.Result ε σ Ending}
    (hy : visitor.Yields nodes 0 state result) :
    visitor.Ends (start nodes state) (outcomeOf result) := by
  have enter : visitor.step (start nodes state) = .on ⟨[⟨nodes, 0, none, true⟩], state⟩ := rfl
  refine .on enter (hy none [] _ ?_)
  match result with
  | .ok .completed after =>
    -- the walk has no hook, so its frame is left for nothing
    have leave : visitor.step ⟨[⟨[], 0, none, true⟩], after⟩ = .on ⟨[], after⟩ := rfl
    have completed : visitor.step ⟨[], after⟩ = .off (.ok .completed) ⟨[], after⟩ := rfl
    exact .on leave (.off completed)
  | .ok .stopped after => rfl
  | .error error after => rfl

end Visitor

end Stencil.Walk

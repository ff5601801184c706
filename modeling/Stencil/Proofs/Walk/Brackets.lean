import Stencil.Proofs.Walk.Steps
import Stencil.Walk.Walker

/-!
# Hooks on every way out

A walker calls a visitor and hooks, and a record of its calls, with how each was answered, shows what it
has done (`Callbacks.traced`). If hooks can always be left, the calls of a walk are `Bracketed`, however
the walk ends: a hook that was entered is left, once, after all that was entered later has been left, and
nothing else is left. The walk ends at the first call that stops it or fails, with what that call said,
and only hooks are left after it (`Concludes`). The walker is as good as new then.

The invariant is which hooks are `Open` after the calls so far: those on the stack that were entered.
-/

set_option autoImplicit false

namespace Stencil.Walk

variable {σ τ ε η κ α : Type}

/-! ## Calls -/

/-- What a walker called, and what came of it. -/
inductive Call (ε η : Type)
  | visit (node : Node) (depth : Int) (answer : Except ε Control)
  | enter (hook : η) (answer : Except ε Unit)
  | leave (hook : η) (answer : Except ε Unit)

/-- How a call ends a walk, if it does. -/
def Call.verdict? : Call ε η → Option (Except ε Ending)
  | .visit _ _ (.ok .stop) => some (.ok .stopped)
  | .visit _ _ (.error error) | .enter _ (.error error) | .leave _ (.error error) =>
    some (.error error)
  | .visit _ _ (.ok .proceed) | .visit _ _ (.ok .skip) | .enter _ (.ok _) | .leave _ (.ok _) => none

/-- These calls do not end a walk. -/
def Quiet (calls : List (Call ε η)) : Prop := ∀ call ∈ calls, call.verdict? = none

theorem quiet_nil : Quiet ([] : List (Call ε η)) := fun _ hm => absurd hm List.not_mem_nil

theorem quiet_singleton {call : Call ε η} (h : call.verdict? = none) : Quiet [call] :=
  List.forall_mem_singleton.2 h

theorem quiet_append {calls others : List (Call ε η)} (h : Quiet calls) (ho : Quiet others) :
    Quiet (calls ++ others) :=
  List.forall_mem_append.2 ⟨h, ho⟩

/-- A call with its answer put on record. -/
def tracing (call : Except ε α → Call ε η) (action : EStateM ε (σ × κ) α) :
    EStateM ε ((σ × List (Call ε η)) × κ) α := fun whole =>
  match action (whole.1.1, whole.2) with
  | .ok answer after => .ok answer ((after.1, whole.1.2 ++ [call (.ok answer)]), after.2)
  | .error error after => .error error ((after.1, whole.1.2 ++ [call (.error error)]), after.2)

/-- The same callbacks, with each call put on record. -/
def Callbacks.traced (callbacks : Callbacks σ ε η) : Callbacks (σ × List (Call ε η)) ε η where
  visit node depth := tracing (.visit node depth) (callbacks.visit node depth)
  enter hook := tracing (.enter hook) (callbacks.enter hook)
  leave hook := tracing (.leave hook) (callbacks.leave hook)

/-! ## The record changes nothing -/

namespace Visitor

section Simulates

variable {fit : Node → Prop} {hooks : η → κ → Prop} {states : σ → τ → Prop}
  {visitor : Visitor σ ε η} {other : Visitor τ ε κ}

/-- Walks side by side come to their ends after the same number of steps. -/
theorem Simulates.endFor (h : visitor.Simulates fit hooks states other) {machine : Machine σ η}
    {beside : Machine τ κ} (hm : Machine.Alike fit hooks states machine beside) (steps : Nat) :
    Option.Rel (fun ended reply => ended.1 = reply.1 ∧
        Machine.Alike fit hooks states ended.2 reply.2)
      (visitor.endFor steps machine) (other.endFor steps beside) := by
  induction steps generalizing machine beside with
  | zero => exact .none
  | succ steps ih =>
    rw [Visitor.endFor, Visitor.endFor]
    cases turn : visitor.step machine with
    | on next =>
      obtain ⟨following, turn', hn⟩ := h.exists_on hm turn
      rw [turn']
      exact ih hn
    | off verdict last =>
      obtain ⟨final, turn', hl⟩ := h.exists_off hm turn
      rw [turn']
      exact .some ⟨rfl, hl⟩

theorem Simulates.release (h : visitor.Simulates fit hooks states other) {machine : Machine σ η}
    {beside : Machine τ κ} (hm : Machine.Alike fit hooks states machine beside) :
    (visitor.release machine.frames machine.state).1 =
        (other.release beside.frames beside.state).1 ∧
      Machine.Alike fit hooks states (visitor.release machine.frames machine.state).2
        (other.release beside.frames beside.state).2 := by
  obtain ⟨frames, state⟩ := machine
  obtain ⟨others, coming⟩ := beside
  obtain ⟨hf, hs⟩ := hm
  dsimp only at hf hs ⊢
  induction hf generalizing state coming with
  | nil => exact ⟨rfl, .nil, hs⟩
  | @cons frame twin outer outers hframe houter ih =>
    simp only [Visitor.release, ← hframe.entered]
    split
    · rcases (h.leaveHook hframe.hook _ _ hs).exists_eq with
        ⟨_, _, _, _, ha, hb, _, hs⟩ | ⟨error, _, _, ha, hb, hs⟩
      · rw [ha, hb]
        exact ih _ _ hs
      · rw [ha, hb]
        exact ⟨rfl, houter, hs⟩
    · exact ih _ _ hs

end Simulates

end Visitor

theorem frames_eq_of_alike {fit : Node → Prop} {frames others : List (Frame η)}
    (h : List.Forall₂ (Frame.Alike fit Eq) frames others) : frames = others := by
  induction h with
  | nil => rfl
  | @cons frame other _ _ hframe _ ih =>
    obtain ⟨pending, depth, hook, entered⟩ := frame
    obtain ⟨_, _, _, _⟩ := other
    obtain ⟨rfl, rfl, hhook, rfl, _⟩ := hframe
    cases hhook with
    | none => rw [ih]
    | some hhook =>
      subst hhook
      rw [ih]

namespace Callbacks

variable {callbacks : Callbacks σ ε η}

theorem matches_tracing (call : Except ε α → Call ε η) (action : EStateM ε (σ × κ) α) :
    Matches Eq (fun whole traced => whole = (traced.1.1, traced.2)) action (tracing call action) := by
  intro whole traced hs
  subst hs
  unfold tracing
  cases action (traced.1.1, traced.2) with
  | ok answer after => exact .ok rfl rfl
  | error error after => exact .error rfl

theorem visitor_traced_visit (node : Node) (depth : Int)
    (whole : (σ × List (Call ε η)) × List (Request η)) :
    callbacks.traced.visitor.visit node depth whole =
      match callbacks.visit node depth (whole.1.1, []) with
      | .ok .stop after => .ok (.stop, [])
        ((after.1, whole.1.2 ++ [.visit node depth (.ok .stop)]), after.2)
      | .ok control after => .ok (control, after.2)
        ((after.1, whole.1.2 ++ [.visit node depth (.ok control)]), [])
      | .error error after => .error error
        ((after.1, whole.1.2 ++ [.visit node depth (.error error)]), after.2) := by
  simp only [visitor, traced, tracing]
  cases callbacks.visit node depth (whole.1.1, []) with
  | error error after => rfl
  | ok control after => cases control <;> rfl

theorem simulates_traced (callbacks : Callbacks σ ε η) :
    callbacks.visitor.Simulates (fun _ => True) Eq
      (fun whole traced => whole = (traced.1.1, traced.2)) callbacks.traced.visitor where
  children _ _ _ := trivial
  visit _ depth := by
    intro whole traced hs
    subst hs
    rw [visitor_traced_visit]
    unfold visitor
    dsimp only
    cases callbacks.visit _ depth (traced.1.1, []) with
    | error error after => exact .error rfl
    | ok control after =>
      have hrequests : List.Forall₂ (Request.Alike (fun _ => True) Eq) after.2 after.2 := by
        refine List.forall₂_same.2 fun request _ => ⟨rfl, rfl, ?_, fun _ _ => trivial⟩
        cases request.hook with
        | none => exact .none
        | some hook => exact .some rfl
      cases control with
      | stop => exact .ok ⟨rfl, .nil⟩ rfl
      | proceed | skip => exact .ok ⟨rfl, hrequests⟩ rfl
  enter h := by
    subst h
    exact (matches_tracing _ _).mono fun _ _ _ => trivial
  leave h := by
    subst h
    exact (matches_tracing _ _).mono fun _ _ _ => trivial

/-- A state with a record goes with the state without it. -/
abbrev Recording (whole : σ × List (Request η))
    (traced : (σ × List (Call ε η)) × List (Request η)) : Prop :=
  whole = (traced.1.1, traced.2)

theorem exists_settle_traced (callbacks : Callbacks σ ε η) {last : Machine (σ × List (Request η)) η}
    {final : Machine ((σ × List (Call ε η)) × List (Request η)) η}
    (hm : Machine.Alike (fun _ => True) Eq Recording last final) (verdict : Except ε Ending) :
    ∃ calls, callbacks.traced.settle verdict final =
      ⟨(callbacks.settle verdict last).verdict, ((callbacks.settle verdict last).state, calls),
        (callbacks.settle verdict last).walker⟩ := by
  obtain ⟨hresult, hrest⟩ := callbacks.simulates_traced.release hm
  unfold settle
  -- what is left of the stacks matters and not how they were taken down, so the two results may be
  -- anything
  revert hresult hrest
  generalize callbacks.visitor.release last.frames last.state = released
  generalize callbacks.traced.visitor.release final.frames final.state = replied
  intro hresult hrest
  obtain ⟨result, frames, whole⟩ := released
  obtain ⟨_, others, ⟨state, calls⟩, queue⟩ := replied
  obtain rfl : result = _ := hresult
  obtain rfl : frames = others := frames_eq_of_alike hrest.frames
  obtain rfl : whole = (state, queue) := hrest.state
  cases result with
  | ok => exact ⟨calls, rfl⟩
  | error error => exact ⟨calls, rfl⟩

/-- A walk has a record, and apart from that, it is the walk that it would have been without. -/
theorem exists_traced {steps : Nat} {walker : Walker η} {nodes : List Node} {state : σ}
    {returned : Returned σ ε η} (h : callbacks.runFor steps walker nodes state = some returned) :
    ∃ calls, callbacks.traced.runFor steps walker nodes (state, []) =
      some ⟨returned.verdict, (returned.state, calls), returned.walker⟩ := by
  have hstart : Machine.Alike (fun _ => True) (Eq : η → η → Prop) Recording
      (Visitor.start nodes (state, walker.queued))
      (Visitor.start nodes ((state, ([] : List (Call ε η))), walker.queued)) :=
    Visitor.start_alike (fun _ _ => trivial) rfl
  have hend := callbacks.simulates_traced.endFor hstart steps
  unfold runFor at h ⊢
  revert h hend
  generalize callbacks.visitor.endFor steps _ = ended
  generalize callbacks.traced.visitor.endFor steps _ = reply
  intro h hend
  cases hend with
  | none => cases h
  | @some ended reply hended =>
    obtain ⟨hverdict, hmachine⟩ := hended
    obtain ⟨calls, hsettle⟩ := exists_settle_traced callbacks hmachine ended.1
    obtain rfl := Option.some.inj h
    refine ⟨calls, ?_⟩
    rw [Option.map_some, ← hverdict, hsettle]

end Callbacks

/-! ## Brackets -/

/-- Every hook that is entered is left, after all that is entered later has been left, and no other hook
is left. A hook that refuses to be entered is not left, and every hook can be left. -/
inductive Bracketed : List (Call ε η) → Prop
  | nil : Bracketed []
  | visit {node : Node} {depth : Int} {answer : Except ε Control} {rest : List (Call ε η)}
    (hr : Bracketed rest) : Bracketed (.visit node depth answer :: rest)
  | refused {hook : η} {error : ε} {rest : List (Call ε η)} (hr : Bracketed rest) :
    Bracketed (.enter hook (.error error) :: rest)
  | walk {hook : η} {inner rest : List (Call ε η)} (hi : Bracketed inner) (hr : Bracketed rest) :
    Bracketed (.enter hook (.ok ()) :: (inner ++ .leave hook (.ok ()) :: rest))

/-- The calls are bracketed, but for these hooks, innermost first, which have not been left yet. -/
inductive Open : List η → List (Call ε η) → Prop
  | closed {calls : List (Call ε η)} (h : Bracketed calls) : Open [] calls
  | within {hook : η} {hooks : List η} {before inner : List (Call ε η)} (ho : Open hooks before)
    (hi : Bracketed inner) : Open (hook :: hooks) (before ++ .enter hook (.ok ()) :: inner)

theorem Bracketed.append {calls others : List (Call ε η)} (h : Bracketed calls)
    (ho : Bracketed others) : Bracketed (calls ++ others) := by
  induction h with
  | nil => exact ho
  | visit _ ih => exact .visit ih
  | refused _ ih => exact .refused ih
  | walk hi _ _ ih =>
    rw [List.cons_append, List.append_assoc]
    exact .walk hi ih

theorem Open.append {hooks : List η} {calls others : List (Call ε η)} (h : Open hooks calls)
    (ho : Bracketed others) : Open hooks (calls ++ others) := by
  cases h with
  | closed h => exact .closed (h.append ho)
  | within h hi =>
    rw [List.append_assoc, List.cons_append]
    exact .within h (hi.append ho)

/-- The innermost open hook can be left. -/
theorem Open.leave {hook : η} {hooks : List η} {calls : List (Call ε η)}
    (h : Open (hook :: hooks) calls) : Open hooks (calls ++ [.leave hook (.ok ())]) := by
  cases h with
  | within ho hi =>
    rw [List.append_assoc, List.cons_append]
    exact ho.append (.walk hi .nil)

/-- A hook that has been entered is open. -/
theorem Open.enter {hooks : List η} {calls : List (Call ε η)} (h : Open hooks calls) (hook : η) :
    Open (hook :: hooks) (calls ++ [.enter hook (.ok ())]) :=
  .within h .nil

namespace Callbacks

variable {callbacks : Callbacks σ ε η}

section Tracing

variable {call : Except ε α → Call ε η} {action : EStateM ε (σ × κ) α}
  {whole after : (σ × List (Call ε η)) × κ}

theorem calls_of_tracing_ok {answer : α} (h : tracing call action whole = .ok answer after) :
    after.1.2 = whole.1.2 ++ [call (.ok answer)] := by
  unfold tracing at h
  cases ha : action (whole.1.1, whole.2) with
  | ok other state =>
    rw [ha] at h
    cases h
    rfl
  | error error state =>
    rw [ha] at h
    cases h

theorem calls_of_tracing_error {error : ε} (h : tracing call action whole = .error error after) :
    after.1.2 = whole.1.2 ++ [call (.error error)] := by
  unfold tracing at h
  cases ha : action (whole.1.1, whole.2) with
  | ok answer state =>
    rw [ha] at h
    cases h
  | error other state =>
    rw [ha] at h
    cases h
    rfl

end Tracing

/-- A visit puts itself on record, and nothing else. -/
theorem calls_of_visit (node : Node) (depth : Int)
    (whole : (σ × List (Call ε η)) × List (Request η)) :
    match callbacks.traced.visitor.visit node depth whole with
    | .ok answer after => after.1.2 = whole.1.2 ++ [.visit node depth (.ok answer.1)]
    | .error error after => after.1.2 = whole.1.2 ++ [.visit node depth (.error error)] := by
  rw [visitor_traced_visit]
  cases callbacks.visit node depth (whole.1.1, []) with
  | error error after => rfl
  | ok control after => cases control <;> rfl

/-- **The hooks that are open are those on the stack that were entered**, if hooks can always be left. -/
theorem maintains_open (hl : ∀ hook whole, ∃ left, callbacks.leave hook whole = .ok () left) :
    callbacks.traced.visitor.Maintains fun hooks whole => Open hooks whole.1.2 where
  visit {hooks whole} node depth hopen := by
    have hcalls := callbacks.calls_of_visit node depth whole
    cases hv : callbacks.traced.visitor.visit node depth whole with
    | ok answer after =>
      rw [hv] at hcalls
      rw [stateOf, hcalls]
      exact hopen.append (.visit .nil)
    | error error after =>
      rw [hv] at hcalls
      rw [stateOf, hcalls]
      exact hopen.append (.visit .nil)
  enter hook hopen he := by
    rw [calls_of_tracing_ok he]
    exact hopen.enter hook
  refuse hook hopen he := by
    rw [calls_of_tracing_error he]
    exact hopen.append (.refused .nil)
  leave {hooks whole} hook hopen := by
    obtain ⟨left, hleave⟩ := hl hook (whole.1.1, whole.2)
    have htraced : callbacks.traced.visitor.leave hook whole =
        .ok () ((left.1, whole.1.2 ++ [.leave hook (.ok ())]), left.2) := by
      simp only [visitor, traced, tracing, hleave]
    exact ⟨_, htraced, hopen.leave⟩

/-! ## How walks end -/

/-- What one step puts on record does not end the walk, unless the step does, and then with the same
verdict. -/
theorem calls_of_step (machine : Machine ((σ × List (Call ε η)) × List (Request η)) η) :
    match callbacks.traced.visitor.step machine with
    | .on next => ∃ calls, Quiet calls ∧ next.state.1.2 = machine.state.1.2 ++ calls
    | .off verdict last => (verdict = .ok .completed ∧ last = machine) ∨
      ∃ call, call.verdict? = some verdict ∧ last.state.1.2 = machine.state.1.2 ++ [call] := by
  obtain ⟨frames, whole⟩ := machine
  cases frames with
  | nil => exact .inl ⟨rfl, rfl⟩
  | cons frame outer =>
    obtain ⟨pending, depth, hook, entered⟩ := frame
    -- a frame is entered, left when nothing waits in it, or has its next node visited
    cases entered with
    | false =>
      simp only [Visitor.step, Bool.false_eq_true, if_false]
      cases hook with
      | none => exact ⟨[], quiet_nil, (List.append_nil _).symm⟩
      | some hook =>
        cases he : callbacks.traced.visitor.enterHook (some hook) whole with
        | ok u after =>
          exact ⟨[.enter hook (.ok ())], quiet_singleton rfl, calls_of_tracing_ok he⟩
        | error error after =>
          exact .inr ⟨.enter hook (.error error), rfl, calls_of_tracing_error he⟩
    | true =>
      simp only [Visitor.step, if_true]
      cases pending with
      | nil =>
        cases hook with
        | none => exact ⟨[], quiet_nil, (List.append_nil _).symm⟩
        | some hook =>
          dsimp only
          cases hl : callbacks.traced.visitor.leaveHook (some hook) whole with
          | ok u after =>
            exact ⟨[.leave hook (.ok ())], quiet_singleton rfl, calls_of_tracing_ok hl⟩
          | error error after =>
            exact .inr ⟨.leave hook (.error error), rfl, calls_of_tracing_error hl⟩
      | cons node rest =>
        have hcalls := callbacks.calls_of_visit node depth whole
        dsimp only
        cases hv : callbacks.traced.visitor.visit node depth whole with
        | error error after =>
          rw [hv] at hcalls
          exact .inr ⟨.visit node depth (.error error), rfl, hcalls⟩
        | ok answer after =>
          rw [hv] at hcalls
          obtain ⟨control, requests⟩ := answer
          cases control with
          | stop => exact .inr ⟨.visit node depth (.ok .stop), rfl, hcalls⟩
          | proceed => exact ⟨[.visit node depth (.ok .proceed)], quiet_singleton rfl, hcalls⟩
          | skip => exact ⟨[.visit node depth (.ok .skip)], quiet_singleton rfl, hcalls⟩

/-- A walk comes to its end with a call that says so, or with none. -/
theorem calls_of_endFor {steps : Nat}
    {machine last : Machine ((σ × List (Call ε η)) × List (Request η)) η}
    {verdict : Except ε Ending} (hq : Quiet machine.state.1.2)
    (h : callbacks.traced.visitor.endFor steps machine = some (verdict, last)) :
    (verdict = .ok .completed ∧ Quiet last.state.1.2) ∨
      ∃ before call, Quiet before ∧ call.verdict? = some verdict ∧
        last.state.1.2 = before ++ [call] := by
  induction steps generalizing machine with
  | zero => cases h
  | succ steps ih =>
    have hstep := callbacks.calls_of_step machine
    rw [Visitor.endFor] at h
    cases turn : callbacks.traced.visitor.step machine with
    | on next =>
      rw [turn] at h hstep
      obtain ⟨calls, hcalls, hnext⟩ := hstep
      refine ih ?_ h
      rw [hnext]
      exact quiet_append hq hcalls
    | off verdict final =>
      rw [turn] at h hstep
      cases h
      rcases hstep with ⟨rfl, rfl⟩ | ⟨call, hcall, hlast⟩
      · exact .inl ⟨rfl, hq⟩
      · exact .inr ⟨_, call, hq, hcall, hlast⟩

/-- Taking down a stack leaves its hooks, and leaves no frame. -/
theorem exists_leaves (hl : ∀ hook whole, ∃ left, callbacks.leave hook whole = .ok () left)
    (frames : List (Frame η)) (whole : (σ × List (Call ε η)) × List (Request η)) :
    ∃ leaves left, callbacks.traced.visitor.release frames whole = (.ok (), ⟨[], left⟩) ∧
      left.1.2 = whole.1.2 ++ leaves ∧ ∀ call ∈ leaves, ∃ hook, call = .leave hook (.ok ()) := by
  induction frames generalizing whole with
  | nil =>
    exact ⟨[], whole, rfl, (List.append_nil _).symm, fun call hm => absurd hm List.not_mem_nil⟩
  | cons frame outer ih =>
    obtain ⟨pending, depth, hook, entered⟩ := frame
    cases entered with
    | false => exact ih whole
    | true =>
      cases hook with
      | none => exact ih whole
      | some hook =>
        obtain ⟨left, hleave⟩ := hl hook (whole.1.1, whole.2)
        have htraced : callbacks.traced.visitor.leaveHook (some hook) whole =
            .ok () ((left.1, whole.1.2 ++ [.leave hook (.ok ())]), left.2) := by
          simp only [Visitor.leaveHook, visitor, traced, tracing, hleave]
        obtain ⟨leaves, final, hrelease, hcalls, hleaves⟩ :=
          ih ((left.1, whole.1.2 ++ [.leave hook (.ok ())]), left.2)
        refine ⟨.leave hook (.ok ()) :: leaves, final, ?_, ?_, ?_⟩
        · simp only [Visitor.release, if_true, htraced]
          exact hrelease
        · rw [hcalls, List.append_assoc]
          rfl
        · exact List.forall_mem_cons.2 ⟨⟨hook, rfl⟩, hleaves⟩

end Callbacks

/-- A walk with this verdict called these in turn: no call ended it, or the first that did said so, and
all that came after it was to leave hooks. -/
inductive Concludes : Except ε Ending → List (Call ε η) → Prop
  | completed {calls : List (Call ε η)} (hq : Quiet calls) : Concludes (.ok .completed) calls
  | cut {verdict : Except ε Ending} {before after : List (Call ε η)} {call : Call ε η}
    (hq : Quiet before) (hc : call.verdict? = some verdict)
    (ha : ∀ call ∈ after, ∃ hook, call = .leave hook (.ok ())) :
    Concludes verdict (before ++ call :: after)

namespace Visitor

/-- What is kept by each step holds when the walk has come to its end. -/
theorem Keeps.endFor {visitor : Visitor σ ε η} {inv : List η → σ → Prop}
    (h : visitor.Keeps inv) {steps : Nat} {machine last : Machine σ η}
    {verdict : Except ε Ending} (hi : inv (hooksOf machine.frames) machine.state)
    (he : visitor.endFor steps machine = some (verdict, last)) :
    inv (hooksOf last.frames) last.state := by
  induction steps generalizing machine with
  | zero => cases he
  | succ steps ih =>
    have hstep := h.of_step hi
    rw [Visitor.endFor] at he
    cases turn : visitor.step machine with
    | on next =>
      rw [turn] at he hstep
      exact ih hstep he
    | off verdict final =>
      rw [turn] at he hstep
      cases he
      exact hstep

end Visitor

namespace Callbacks

/-- What a walker still holds when a walk begins plays no part in the walk. -/
theorem runFor_eq_new (callbacks : Callbacks σ ε η) (steps : Nat) (walker : Walker η)
    (nodes : List Node) (state : σ) :
    callbacks.runFor steps walker nodes state = callbacks.runFor steps .new nodes state := by
  unfold runFor
  match steps with
  | 0 => rfl
  | 1 => rfl
  | steps + 2 =>
    cases nodes with
    | nil =>
      cases steps with
      | zero => rfl
      | succ steps => rfl
    -- the first visit begins with an empty queue, whatever was in it
    | cons node rest => rfl

/-- **Hooks are left on every way out.** If hooks can always be left, a walk that comes to an end has
bracketed calls, whatever visits and hooks do; its verdict is the one of the call that ended it; and
afterwards the walker is as it was when it was new, so that its next walk is that of a new one. -/
theorem bracketed_of_runFor {callbacks : Callbacks σ ε η}
    (hl : ∀ hook whole, ∃ left, callbacks.leave hook whole = .ok () left) {steps : Nat}
    {walker : Walker η} {nodes : List Node} {state : σ} {returned : Returned σ ε η}
    (h : callbacks.runFor steps walker nodes state = some returned) :
    ∃ calls, callbacks.traced.runFor steps walker nodes (state, []) =
        some ⟨returned.verdict, (returned.state, calls), returned.walker⟩ ∧
      Bracketed calls ∧ Concludes returned.verdict calls ∧ returned.walker = .new ∧
      ∀ steps nodes state, callbacks.runFor steps returned.walker nodes state =
        callbacks.runFor steps .new nodes state := by
  obtain ⟨calls, htraced⟩ := exists_traced h
  refine ⟨calls, htraced, ?_⟩
  rw [runFor, Option.map_eq_some_iff] at htraced
  obtain ⟨⟨verdict, last⟩, hend, hsettle⟩ := htraced
  have hm := callbacks.maintains_open hl
  have hopen : Open (hooksOf last.frames) last.state.1.2 := by
    refine hm.keeps.endFor ?_ hend
    exact .closed .nil
  obtain ⟨left, hunwind, hclosed⟩ := hm.unwind last.frames hopen
  obtain ⟨leaves, final, hrelease, hcalls, hleaves⟩ := exists_leaves hl last.frames last.state
  -- unwinding and taking down the stack end in the same state
  obtain rfl : final = left := by
    rw [Visitor.unwind_eq_release, hrelease] at hunwind
    cases hunwind
    rfl
  rw [settle, hrelease] at hsettle
  obtain ⟨hverdict, hstate, hwalker⟩ := Returned.mk.inj hsettle
  have hrecord : final.1.2 = calls := congrArg Prod.snd hstate
  rw [hrecord] at hclosed hcalls
  have hbracketed : Bracketed calls := by
    cases hclosed with
    | closed hb => exact hb
  refine ⟨hbracketed, ?_, hwalker.symm, fun steps nodes state => runFor_eq_new _ steps _ nodes state⟩
  rw [← hverdict, hcalls]
  rcases calls_of_endFor quiet_nil hend with ⟨rfl, hq⟩ | ⟨before, call, hq, hcall, hlast⟩
  · refine .completed (quiet_append hq fun call hmem => ?_)
    obtain ⟨hook, rfl⟩ := hleaves call hmem
    rfl
  · rw [hlast, List.append_assoc]
    exact .cut hq hcall hleaves

/-! ## A walk that is refused -/

def letter (content : String) : Node := ⟨.text content 0, []⟩

/-- At one letter they ask for a walk to another, and there for a walk whose hook refuses. -/
def refusal : Callbacks Unit String Nat where
  visit node _ whole :=
    match node.label with
    | .text "a" _ => .ok .proceed (whole.1, whole.2 ++ [⟨[letter "b"], 0, some 1⟩])
    | .text "b" _ => .ok .skip (whole.1, whole.2 ++ [⟨[letter "a"], 0, some 2⟩])
    | _ => .ok .proceed whole
  enter hook whole := if hook = 2 then .error "refused" whole else .ok () whole
  leave _ whole := .ok () whole

def refusalCalls : List (Call String Nat) :=
  [.visit (letter "a") 0 (.ok .proceed), .enter 1 (.ok ()), .visit (letter "b") 0 (.ok .skip),
    .enter 2 (.error "refused"), .leave 1 (.ok ())]

/-- A walker that still holds a frame and a request. -/
def usedWalker : Walker Nat := ⟨[⟨[letter "b"], 3, some 2, true⟩], [⟨[letter "a"], 0, some 1⟩]⟩

theorem bracketed_refusal :
    (∀ hook whole, ∃ left, refusal.leave hook whole = .ok () left) ∧
      refusal.runFor 7 usedWalker [letter "a"] () = some ⟨.error "refused", (), .new⟩ ∧
      refusal.traced.runFor 7 usedWalker [letter "a"] ((), []) =
        some ⟨.error "refused", ((), refusalCalls), .new⟩ ∧
      Bracketed refusalCalls ∧ Concludes (.error "refused") refusalCalls := by
  have hl : ∀ hook whole, ∃ left, refusal.leave hook whole = .ok () left :=
    fun _ whole => ⟨whole, rfl⟩
  have hrun : refusal.runFor 7 usedWalker [letter "a"] () = some ⟨.error "refused", (), .new⟩ := rfl
  have htraced : refusal.traced.runFor 7 usedWalker [letter "a"] ((), []) =
      some ⟨.error "refused", ((), refusalCalls), .new⟩ := rfl
  obtain ⟨calls, hcalls, hbracketed, hconcludes, _, _⟩ := bracketed_of_runFor hl hrun
  -- a run has one record, so the one that the theorem speaks of is the one that was computed
  obtain rfl : calls = refusalCalls := by
    rw [htraced] at hcalls
    cases hcalls
    rfl
  exact ⟨hl, hrun, htraced, hbracketed, hconcludes⟩

end Callbacks

end Stencil.Walk

import Stencil.Proofs.Walk.Events

/-!
# What a walk does, step by step

One step of a walk acts on the state at most once: it enters a hook, leaves a hook, or visits the node
that is next. `exists_deed` is this, and two kinds of facts come of it by induction on the run.

What every deed preserves holds at the end (`run_induction`). The rule lets a visit assume that the
walk has come to the node, which is how a fact about the whole run can be drawn from where its visits
are made. What holds midway and is kept holds at the end as well (`Keeps.run_of_reaches`,
`Keeps.run_of_visit`). And what only a visit can raise, by one each time, is at most the number of steps
(`size_le_of_runFor`).

The stack is looked at in two more places. The nodes and hooks on it come from the forest that is
walked and from what has been requested (`pending_of_reaches`). And if hooks do not fail, a walk fails
exactly where a visit fails (`Maintains.verdict_eq_error_iff`).
-/

set_option autoImplicit false

namespace Stencil.Walk

variable {σ τ ε η κ α : Type}

/-- The walk is about to visit this node at this depth. -/
def Machine.IsAt (machine : Machine σ η) (node : Node) (depth : Int) : Prop :=
  ∃ rest hook outer, machine.frames = ⟨node :: rest, depth, hook, true⟩ :: outer

/-- The machine that a step leads to, whether or not the walk goes on from there. -/
def Turn.machine : Turn σ ε η → Machine σ η
  | .on next => next
  | .off _ last => last

def Event.isVisit : Event η → Bool
  | .visit _ _ _ => true
  | .enter _ | .leave _ => false

/-- How many visits are on a record. -/
def visits (events : List (Event η)) : Nat := events.countP Event.isVisit

theorem visits_append (events others : List (Event η)) :
    visits (events ++ others) = visits events + visits others :=
  List.countP_append

theorem visits_logging (succeeded : α → List (Event η)) (failed : List (Event η))
    (action : EStateM ε σ α) (whole : σ × List (Event η)) (bound : Nat)
    (hs : ∀ answer, visits (succeeded answer) ≤ bound) (hf : visits failed ≤ bound) :
    visits (stateOf (logging succeeded failed action whole)).2 ≤ visits whole.2 + bound := by
  unfold logging
  cases action whole.1 with
  | ok answer after =>
    show visits (whole.2 ++ succeeded answer) ≤ _
    rw [visits_append]
    exact Nat.add_le_add_left (hs answer) _
  | error error after =>
    show visits (whole.2 ++ failed) ≤ _
    rw [visits_append]
    exact Nat.add_le_add_left hf _

namespace Visitor

variable {visitor : Visitor σ ε η} {machine : Machine σ η} {property : σ → Prop}

/-- What one step may do to the state. -/
inductive Deed (visitor : Visitor σ ε η) (machine : Machine σ η) : σ → Prop
  | idle : Deed visitor machine machine.state
  | enter (hook : η) : Deed visitor machine (stateOf (visitor.enter hook machine.state))
  | leave (hook : η) : Deed visitor machine (stateOf (visitor.leave hook machine.state))
  | visit {node : Node} {depth : Int} (h : machine.IsAt node depth) :
    Deed visitor machine (stateOf (visitor.visit node depth machine.state))

theorem deed_enterHook (hook : Option η) :
    visitor.Deed machine (stateOf (visitor.enterHook hook machine.state)) := by
  cases hook with
  | none => exact .idle
  | some hook => exact .enter hook

theorem deed_leaveHook (hook : Option η) :
    visitor.Deed machine (stateOf (visitor.leaveHook hook machine.state)) := by
  cases hook with
  | none => exact .idle
  | some hook => exact .leave hook

theorem exists_deed (visitor : Visitor σ ε η) (machine : Machine σ η) :
    visitor.Deed machine (visitor.step machine).machine.state := by
  obtain ⟨frames, state⟩ := machine
  cases frames with
  | nil => exact .idle
  | cons frame outer =>
    obtain ⟨pending, depth, hook, entered⟩ := frame
    cases entered with
    | false =>
      have hd : visitor.Deed ⟨⟨pending, depth, hook, false⟩ :: outer, state⟩ _ := deed_enterHook hook
      simp only [step, Bool.false_eq_true, if_false]
      cases he : visitor.enterHook hook state with
      | ok u entered => rwa [he] at hd
      | error error after => rwa [he] at hd
    | true =>
      cases pending with
      | nil =>
        have hd : visitor.Deed ⟨⟨[], depth, hook, true⟩ :: outer, state⟩ _ := deed_leaveHook hook
        simp only [step, if_true]
        cases hl : visitor.leaveHook hook state with
        | ok u left => rwa [hl] at hd
        | error error after => rwa [hl] at hd
      | cons node rest =>
        have hat : Machine.IsAt ⟨⟨node :: rest, depth, hook, true⟩ :: outer, state⟩ node depth :=
          ⟨rest, hook, outer, rfl⟩
        have hd : visitor.Deed ⟨⟨node :: rest, depth, hook, true⟩ :: outer, state⟩ _ := .visit hat
        simp only [step, if_true]
        cases hv : visitor.visit node depth state with
        | error error after => rwa [hv] at hd
        | ok answer after =>
          rw [hv] at hd
          obtain ⟨control, requests⟩ := answer
          cases control with
          | proceed | skip | stop => exact hd

/-! ## Unwinding -/

/-- What is preserved by leaving a hook is preserved by unwinding. -/
theorem unwind_induction (hl : ∀ hook state, property state →
      property (stateOf (visitor.leave hook state)))
    (frames : List (Frame η)) {state : σ} (h : property state) :
    property (stateOf (visitor.unwind frames state)) := by
  induction frames generalizing state with
  | nil => exact h
  | cons frame outer ih =>
    have hleave : property (stateOf (visitor.leaveHook frame.hook state)) := by
      cases frame.hook with
      | none => exact h
      | some hook => exact hl hook state h
    simp only [unwind]
    split
    · simp only [bind, EStateM.bind]
      cases hr : visitor.leaveHook frame.hook state with
      | ok u left =>
        rw [hr] at hleave
        exact ih hleave
      | error error after =>
        rw [hr] at hleave
        exact hleave
    · exact ih h

theorem state_finish (verdict : Except ε Ending) (machine : Machine σ η) :
    (visitor.finish verdict machine).state =
      stateOf (visitor.unwind machine.frames machine.state) := by
  unfold finish
  cases visitor.unwind machine.frames machine.state <;> rfl

/-! ## Runs -/

theorem Reaches.halts {start : Machine σ η} (hr : visitor.Reaches start machine)
    (halts : visitor.Halts start) : visitor.Halts machine := by
  induction hr with
  | refl => exact halts
  | tail _ leads ih => exact ih.inv leads

/-- A walk has the same outcome from wherever it has come to. -/
theorem run_of_reaches {later : Machine σ η} (hr : visitor.Reaches machine later)
    (halts : visitor.Halts machine) (halts' : visitor.Halts later) :
    visitor.run machine halts = visitor.run later halts' := by
  induction hr with
  | refl => rfl
  | tail _ leads ih => rw [ih (halts_of_on leads halts'), run_of_on leads]

/-- What every deed of a walk preserves holds at its end. A visit may assume that the walk has come
to it. -/
theorem run_induction (property : σ → Prop) {start : Machine σ η}
    (hv : ∀ machine node depth, visitor.Reaches start machine → machine.IsAt node depth →
      property machine.state → property (stateOf (visitor.visit node depth machine.state)))
    (he : ∀ hook state, property state → property (stateOf (visitor.enter hook state)))
    (hl : ∀ hook state, property state → property (stateOf (visitor.leave hook state)))
    (h : property start.state) (halts : visitor.Halts start) :
    property (visitor.run start halts).state := by
  -- by induction on the halting of the walk; that each machine was reached is carried along for the
  -- visits
  suffices hall : ∀ machine (_ : visitor.Halts machine) (halts : visitor.Halts machine),
      visitor.Reaches start machine → property machine.state →
      property (visitor.run machine halts).state from hall start halts halts .refl h
  intro machine acc
  induction acc with
  | intro machine _ ih =>
    intro halts hr hm
    have hstep : property (visitor.step machine).machine.state := by
      generalize hs : (visitor.step machine).machine.state = after
      have hd := visitor.exists_deed machine
      rw [hs] at hd
      cases hd with
      | idle => exact hm
      | enter hook => exact he hook machine.state hm
      | leave hook => exact hl hook machine.state hm
      | visit hat => exact hv machine _ _ hr hat hm
    cases turn : visitor.step machine with
    | on next =>
      rw [turn] at hstep
      rw [run_of_on turn]
      exact ih next turn _ (hr.tail turn) hstep
    | off verdict last =>
      rw [turn] at hstep
      rw [run_of_off turn, state_finish]
      exact unwind_induction hl _ hstep

theorem state_step_of_isAt {node : Node} {depth : Int} (hat : machine.IsAt node depth) :
    (visitor.step machine).machine.state = stateOf (visitor.visit node depth machine.state) := by
  obtain ⟨frames, state⟩ := machine
  obtain ⟨rest, hook, outer, rfl⟩ := hat
  simp only [step, if_true]
  cases visitor.visit node depth state with
  | error error after => rfl
  | ok answer after =>
    obtain ⟨control, requests⟩ := answer
    cases control with
    | proceed | skip | stop => rfl

theorem Keeps.stateOf_enter (h : visitor.Keeps fun _ => property) (hook : η) {state : σ}
    (hp : property state) : property (stateOf (visitor.enter hook state)) := by
  cases he : visitor.enter hook state with
  | ok u entered => exact @h.enter [] _ _ hook hp he
  | error error after => exact @h.refuse [] _ _ _ hook hp he

/-- What is kept whichever hooks have been entered holds at the end of a walk. -/
theorem Keeps.run (h : visitor.Keeps fun _ => property) {start : Machine σ η}
    (hp : property start.state) (halts : visitor.Halts start) :
    property (visitor.run start halts).state := by
  refine run_induction property ?_ ?_ ?_ hp halts
  · intro machine node depth _ _ hm
    exact @h.visit [] _ node depth hm
  · intro hook state hs
    exact h.stateOf_enter hook hs
  · intro hook state hs
    exact @h.leave [] _ hook hs

/-- What holds at some time of a walk and is kept holds at its end. -/
theorem Keeps.run_of_reaches (h : visitor.Keeps fun _ => property) {start : Machine σ η}
    (hr : visitor.Reaches start machine) (hp : property machine.state)
    (halts : visitor.Halts start) : property (visitor.run start halts).state := by
  rw [Visitor.run_of_reaches hr halts (hr.halts halts)]
  exact h.run hp _

/-- So does what a visit that the walk comes to establishes. -/
theorem Keeps.run_of_visit (h : visitor.Keeps fun _ => property) {start : Machine σ η}
    (hr : visitor.Reaches start machine) {node : Node} {depth : Int} (hat : machine.IsAt node depth)
    (hp : property (stateOf (visitor.visit node depth machine.state))) (halts : visitor.Halts start) :
    property (visitor.run start halts).state := by
  rw [Visitor.run_of_reaches hr halts (hr.halts halts)]
  rw [← state_step_of_isAt hat] at hp
  cases turn : visitor.step machine with
  | on next =>
    rw [turn] at hp
    rw [run_of_on turn]
    exact h.run hp _
  | off verdict last =>
    rw [turn] at hp
    rw [run_of_off turn, state_finish]
    exact unwind_induction (fun hook state hs => @h.leave [] _ hook hs) _ hp

/-- A quantity that a visit raises by one at most, and nothing else raises, is raised by no more than
the number of steps. -/
theorem size_le_of_runFor (visitor : Visitor σ ε η) {machine : Machine σ η} (size : σ → Nat)
    (hv : ∀ node depth state, size (stateOf (visitor.visit node depth state)) ≤ size state + 1)
    (he : ∀ hook state, size (stateOf (visitor.enter hook state)) ≤ size state)
    (hl : ∀ hook state, size (stateOf (visitor.leave hook state)) ≤ size state)
    {steps : Nat} {outcome : Outcome σ ε} (h : visitor.runFor steps machine = some outcome) :
    size outcome.state ≤ size machine.state + steps := by
  induction steps generalizing machine with
  | zero => cases h
  | succ steps ih =>
    have hstep : size (visitor.step machine).machine.state ≤ size machine.state + 1 := by
      generalize hs : (visitor.step machine).machine.state = after
      have hd := visitor.exists_deed machine
      rw [hs] at hd
      cases hd with
      | idle => exact Nat.le_succ _
      | enter hook => exact Nat.le_succ_of_le (he hook machine.state)
      | leave hook => exact Nat.le_succ_of_le (hl hook machine.state)
      | visit _ => exact hv _ _ machine.state
    rw [runFor] at h
    cases turn : visitor.step machine with
    | on next =>
      rw [turn] at h hstep
      have hrest := ih h
      simp only [Turn.machine] at hstep
      omega
    | off verdict last =>
      rw [turn] at h hstep
      simp only [Turn.machine] at hstep
      obtain rfl := Option.some.inj h
      have hunwind : size (visitor.finish verdict last).state ≤ size last.state := by
        rw [state_finish]
        have hkeep : ∀ hook state, size state ≤ size last.state →
            size (stateOf (visitor.leave hook state)) ≤ size last.state := by
          intro hook state hs
          exact Nat.le_trans (hl hook state) hs
        exact unwind_induction hkeep last.frames (Nat.le_refl _)
      omega

/-- Walks side by side end after the same number of steps. -/
theorem Simulates.runFor {fit : Node → Prop} {hooks : η → κ → Prop} {states : σ → τ → Prop}
    {other : Visitor τ ε κ} (h : visitor.Simulates fit hooks states other)
    {beside : Machine τ κ} (hm : Machine.Alike fit hooks states machine beside) {steps : Nat}
    {outcome : Outcome σ ε} (hr : visitor.runFor steps machine = some outcome) :
    ∃ reply, other.runFor steps beside = some reply ∧ outcome.verdict = reply.verdict ∧
      states outcome.state reply.state := by
  induction steps generalizing machine beside with
  | zero => cases hr
  | succ steps ih =>
    rw [Visitor.runFor] at hr ⊢
    cases turn : visitor.step machine with
    | on next =>
      rw [turn] at hr
      obtain ⟨following, turn', hn⟩ := h.exists_on hm turn
      rw [turn']
      exact ih hn hr
    | off verdict last =>
      rw [turn] at hr
      obtain ⟨final, turn', hl⟩ := h.exists_off hm turn
      rw [turn']
      obtain rfl := Option.some.inj hr
      obtain ⟨hverdict, hstate⟩ := h.finish verdict hl
      exact ⟨_, rfl, hverdict, hstate⟩

/-- Walks that come to an end without an error make up a traversal. -/
theorem performs_of_carries {walks : List (Request η)}
    {state after : σ} {ending : Ending} (h : visitor.Carries walks state (.ok ending after)) :
    ∃ events, visitor.Performs (.walks walks) state events ending after := by
  -- with nothing below them on the stack, the walks are all that there is
  have hends : visitor.Ends ⟨walks.map Request.frame ++ [], state⟩ ⟨.ok ending, after⟩ := by
    refine h [] _ ?_
    cases ending with
    | completed => exact ⟨1, rfl⟩
    | stopped => rfl
  obtain ⟨steps, hs⟩ := hends
  have halike : Machine.Alike (fun _ => True) (Eq : η → η → Prop)
      (fun state (whole : σ × List (Event η)) => state = whole.1)
      ⟨walks.map Request.frame ++ [], state⟩ ⟨walks.map Request.frame ++ [], (state, [])⟩ := by
    refine ⟨List.forall₂_same.2 fun frame _ => ⟨rfl, rfl, ?_, rfl, fun _ _ => trivial⟩, rfl⟩
    cases frame.hook with
    | none => exact .none
    | some hook => exact .some rfl
  obtain ⟨⟨verdict, final⟩, hrecorded, hverdict, hstate⟩ :=
    visitor.simulates_recorded.runFor halike hs
  dsimp only at hverdict hstate
  subst hverdict hstate
  obtain ⟨events, reached, middle, hp, hr⟩ :=
    @exists_performs _ _ _ visitor steps (.walks walks) none [] _ _ _ _ hrecorded
  cases reached with
  | stopped =>
    cases hr
    exact ⟨events, hp⟩
  | completed =>
    obtain ⟨fewer, _, hrest⟩ := hr
    cases fewer with
    | zero => cases hrest
    | succ fewer =>
      cases hrest
      exact ⟨events, hp⟩

/-! ## Counting visits -/

/-- A walk makes no more visits than it takes steps. -/
theorem visits_le_of_runFor {steps : Nat} {start : Machine (σ × List (Event η)) η}
    {outcome : Outcome (σ × List (Event η)) ε}
    (h : visitor.recorded.runFor steps start = some outcome) :
    visits outcome.state.2 ≤ visits start.state.2 + steps := by
  refine visitor.recorded.size_le_of_runFor (fun whole => visits whole.2) ?_ ?_ ?_ h
  · intro node depth whole
    refine visits_logging _ _ (visitor.visit node depth) whole 1 ?_ ?_
    · exact fun _ => Nat.le_refl 1
    · exact Nat.zero_le 1
  · intro hook whole
    refine visits_logging _ _ (visitor.enter hook) whole 0 ?_ ?_
    · exact fun _ => Nat.le_refl 0
    · exact Nat.le_refl 0
  · intro hook whole
    refine visits_logging _ _ (visitor.leave hook) whole 0 ?_ ?_
    · exact fun _ => Nat.le_refl 0
    · exact Nat.le_refl 0

/-! ## What waits on the stack -/

/-- Every node that waits is fit, and every hook on the stack is proper. -/
def Pending (fit : Node → Prop) (proper : η → Prop) (machine : Machine σ η) : Prop :=
  ∀ frame ∈ machine.frames, (∀ node ∈ frame.pending, fit node) ∧ ∀ hook ∈ frame.hook, proper hook

section Pending

variable {fit : Node → Prop} {proper : η → Prop}

theorem pending_start {nodes : List Node} {state : σ} (h : ∀ node ∈ nodes, fit node) :
    Pending fit proper (start nodes state) := by
  intro frame hm
  obtain rfl := List.mem_singleton.1 hm
  exact ⟨h, nofun⟩

theorem Pending.at (h : Pending fit proper machine) {node : Node} {depth : Int}
    (hat : machine.IsAt node depth) : fit node := by
  obtain ⟨rest, hook, outer, hf⟩ := hat
  rw [Pending, hf] at h
  exact (h _ List.mem_cons_self).1 node List.mem_cons_self

theorem Pending.hooksOf (h : Pending fit proper machine) :
    ∀ hook ∈ hooksOf machine.frames, proper hook := by
  intro hook hm
  obtain ⟨frame, hframe, heq⟩ := List.mem_filterMap.1 hm
  split at heq
  · exact (h frame hframe).2 hook heq
  · cases heq

theorem pending_of_step (hc : ∀ node, fit node → ∀ child ∈ node.children, fit child)
    (h : Pending fit proper machine)
    (hr : ∀ node depth control requests after, machine.IsAt node depth →
      visitor.visit node depth machine.state = .ok (control, requests) after →
      ∀ request ∈ requests, (∀ other ∈ request.nodes, fit other) ∧
        ∀ hook ∈ request.hook, proper hook)
    {next : Machine σ η} (turn : visitor.step machine = .on next) : Pending fit proper next := by
  obtain ⟨frames, state⟩ := machine
  cases frames with
  | nil => cases turn
  | cons frame outer =>
    obtain ⟨pending, depth, hook, entered⟩ := frame
    obtain ⟨hframe, houter⟩ := List.forall_mem_cons.1 h
    -- entering changes no node, leaving drops a frame, and only a visit adds nodes
    cases entered with
    | false =>
      simp only [step, Bool.false_eq_true, if_false] at turn
      cases he : visitor.enterHook hook state with
      | error error after =>
        rw [he] at turn
        cases turn
      | ok u after =>
        rw [he] at turn
        cases turn
        exact List.forall_mem_cons.2 ⟨hframe, houter⟩
    | true =>
      cases pending with
      | nil =>
        simp only [step, if_true] at turn
        cases hl : visitor.leaveHook hook state with
        | error error after =>
          rw [hl] at turn
          cases turn
        | ok u after =>
          rw [hl] at turn
          cases turn
          exact houter
      | cons node rest =>
        obtain ⟨hnode, hrest⟩ := List.forall_mem_cons.1 hframe.1
        have hwaiting : Pending fit proper
            (⟨⟨rest, depth, hook, true⟩ :: outer, state⟩ : Machine σ η) :=
          List.forall_mem_cons.2 ⟨⟨hrest, hframe.2⟩, houter⟩
        simp only [step, if_true] at turn
        cases hv : visitor.visit node depth state with
        | error error after =>
          rw [hv] at turn
          cases turn
        | ok answer after =>
          obtain ⟨control, requests⟩ := answer
          have hrequests : Pending fit proper
              (⟨requests.map Request.frame, after⟩ : Machine σ η) := by
            intro frame hm
            obtain ⟨request, hmem, rfl⟩ := List.mem_map.1 hm
            exact hr node depth control requests after ⟨rest, hook, outer, rfl⟩ hv request hmem
          rw [hv] at turn
          cases control with
          | stop => cases turn
          | skip =>
            cases turn
            exact List.forall_mem_append.2 ⟨hrequests, hwaiting⟩
          | proceed =>
            cases turn
            exact List.forall_mem_append.2
              ⟨List.forall_mem_cons.2 ⟨⟨hc node hnode, nofun⟩, hrequests⟩, hwaiting⟩

/-- What waits at any time is fit and proper, if the forest is fit, fit nodes have fit children, and
whatever is requested on the way is fit and proper. -/
theorem pending_of_reaches {start : Machine σ η}
    (hc : ∀ node, fit node → ∀ child ∈ node.children, fit child)
    (hr : ∀ machine, visitor.Reaches start machine → Pending fit proper machine →
      ∀ node depth control requests after, machine.IsAt node depth →
      visitor.visit node depth machine.state = .ok (control, requests) after →
      ∀ request ∈ requests, (∀ other ∈ request.nodes, fit other) ∧
        ∀ hook ∈ request.hook, proper hook)
    (h : Pending fit proper start) (hm : visitor.Reaches start machine) :
    Pending fit proper machine := by
  induction hm with
  | refl => exact h
  | tail hreached leads ih => exact pending_of_step hc ih (hr _ hreached ih) leads

/-- The same with a property of the state, which the requests of a visit can depend on. -/
theorem pending_and_of_reaches {start : Machine σ η}
    (hc : ∀ node, fit node → ∀ child ∈ node.children, fit child)
    (hv : ∀ machine, visitor.Reaches start machine → Pending fit proper machine →
      property machine.state → ∀ node depth, machine.IsAt node depth →
      property (stateOf (visitor.visit node depth machine.state)))
    (he : ∀ hook state, property state → property (stateOf (visitor.enter hook state)))
    (hl : ∀ hook state, property state → property (stateOf (visitor.leave hook state)))
    (hr : ∀ machine, visitor.Reaches start machine → Pending fit proper machine →
      ∀ node depth control requests after, machine.IsAt node depth →
      visitor.visit node depth machine.state = .ok (control, requests) after → property after →
      ∀ request ∈ requests, (∀ other ∈ request.nodes, fit other) ∧
        ∀ hook ∈ request.hook, proper hook)
    (h : Pending fit proper start) (hp : property start.state) (hm : visitor.Reaches start machine) :
    Pending fit proper machine ∧ property machine.state := by
  -- both are needed for each step: what waits says what may be visited, and the state what may be
  -- requested
  induction hm with
  | refl => exact ⟨h, hp⟩
  | @tail machine next hreached leads ih =>
    obtain ⟨hpending, hstate⟩ := ih
    have hvisit := hv machine hreached hpending hstate
    refine ⟨pending_of_step hc hpending ?_ leads, ?_⟩
    · intro node depth control requests after hat hvisited
      have hafter := hvisit node depth hat
      rw [hvisited] at hafter
      exact hr machine hreached hpending node depth control requests after hat hvisited hafter
    · have hd : visitor.Deed machine next.state := by
        have hd := visitor.exists_deed machine
        rwa [show visitor.step machine = .on next from leads] at hd
      generalize next.state = after at hd ⊢
      cases hd with
      | idle => exact hstate
      | enter hook => exact he hook machine.state hstate
      | leave hook => exact hl hook machine.state hstate
      | visit hat => exact hvisit _ _ hat

end Pending

/-! ## Where a walk fails -/

theorem step_of_visit_error {node : Node} {depth : Int} {error : ε} {after : σ}
    (hat : machine.IsAt node depth)
    (hv : visitor.visit node depth machine.state = .error error after) :
    ∃ last, visitor.step machine = .off (.error error) last ∧ last.state = after := by
  obtain ⟨frames, state⟩ := machine
  obtain ⟨rest, hook, outer, rfl⟩ := hat
  refine ⟨⟨⟨rest, depth, hook, true⟩ :: outer, after⟩, ?_, rfl⟩
  simp only [step, if_true, hv]

/-- After a visit that fails nothing is done but leaving hooks. -/
theorem state_of_visit_error (property : σ → Prop) {start : Machine σ η}
    (hr : visitor.Reaches start machine) {node : Node} {depth : Int} {error : ε} {after : σ}
    (hat : machine.IsAt node depth)
    (hv : visitor.visit node depth machine.state = .error error after) (h : property after)
    (hl : ∀ hook state, property state → property (stateOf (visitor.leave hook state)))
    (halts : visitor.Halts start) : property (visitor.run start halts).state := by
  obtain ⟨last, turn, hlast⟩ := step_of_visit_error hat hv
  rw [run_of_reaches hr halts (hr.halts halts), run_of_off turn, state_finish]
  refine unwind_induction hl last.frames ?_
  rw [hlast]
  exact h

/-- If hooks can be left, the error of a visit that fails is what the walk fails with. -/
theorem Maintains.verdict_of_visit {inv : List η → σ → Prop} (h : visitor.Maintains inv)
    {start : Machine σ η} (hi : inv (hooksOf start.frames) start.state)
    (hr : visitor.Reaches start machine) {node : Node} {depth : Int} {error : ε} {after : σ}
    (hat : machine.IsAt node depth)
    (hv : visitor.visit node depth machine.state = .error error after)
    (halts : visitor.Halts start) : (visitor.run start halts).verdict = .error error := by
  obtain ⟨last, turn, _⟩ := step_of_visit_error hat hv
  have hlast := h.of_step (h.of_reaches hi hr)
  rw [turn] at hlast
  rw [run_of_reaches hr halts (hr.halts halts), run_of_off turn]
  exact (h.finish hlast _).1

section Hooks

variable {inv : List η → σ → Prop} (h : visitor.Maintains inv)
  (he : ∀ {hooks state} hook, inv hooks state → ∃ entered, visitor.enter hook state = .ok () entered)

include h he

/-- If hooks do not fail, a step that ends the walk with an error is a visit. -/
theorem Maintains.exists_visit_of_off (hi : inv (hooksOf machine.frames) machine.state) {error : ε}
    {last : Machine σ η} (turn : visitor.step machine = .off (.error error) last) :
    ∃ node depth after, machine.IsAt node depth ∧
      visitor.visit node depth machine.state = .error error after := by
  obtain ⟨frames, state⟩ := machine
  cases frames with
  | nil => cases turn
  | cons frame outer =>
    obtain ⟨pending, depth, hook, entered⟩ := frame
    -- hooks can be entered and left by assumption, so the error is that of a visit
    cases entered with
    | false =>
      obtain ⟨after, hok⟩ : ∃ after, visitor.enterHook hook state = .ok () after := by
        cases hook with
        | none => exact ⟨state, rfl⟩
        | some hook => exact he hook hi
      simp only [step, Bool.false_eq_true, if_false, hok] at turn
      cases turn
    | true =>
      cases pending with
      | nil =>
        rw [hooksOf_cons_entered] at hi
        obtain ⟨left, hleave, _⟩ := h.leaveHook hi
        simp only [step, if_true, hleave] at turn
        cases turn
      | cons node rest =>
        refine ⟨node, depth, ?_⟩
        simp only [step, if_true] at turn
        cases hv : visitor.visit node depth state with
        | error other after =>
          rw [hv] at turn
          cases turn
          exact ⟨after, ⟨rest, hook, outer, rfl⟩, rfl⟩
        | ok answer after =>
          rw [hv] at turn
          obtain ⟨control, requests⟩ := answer
          cases control with
          | proceed | skip | stop => cases turn

/-- **A walk whose hooks do not fail fails where a visit fails that it comes to.** -/
theorem Maintains.verdict_eq_error_iff {start : Machine σ η}
    (hi : inv (hooksOf start.frames) start.state) (halts : visitor.Halts start) {error : ε} :
    (visitor.run start halts).verdict = .error error ↔
      ∃ machine node depth after, visitor.Reaches start machine ∧ machine.IsAt node depth ∧
        visitor.visit node depth machine.state = .error error after := by
  constructor
  · intro hv
    suffices hall : ∀ machine (_ : visitor.Halts machine) (halts : visitor.Halts machine),
        visitor.Reaches start machine → (visitor.run machine halts).verdict = .error error →
        ∃ machine node depth after, visitor.Reaches start machine ∧ machine.IsAt node depth ∧
          visitor.visit node depth machine.state = .error error after from
      hall start halts halts .refl hv
    intro machine acc
    induction acc with
    | intro machine _ ih =>
      intro halts hr hv
      cases turn : visitor.step machine with
      | on next =>
        rw [run_of_on turn] at hv
        exact ih next turn _ (hr.tail turn) hv
      | off verdict last =>
        have hlast := h.of_step (h.of_reaches hi hr)
        rw [turn] at hlast
        rw [run_of_off turn, (h.finish hlast verdict).1] at hv
        subst hv
        obtain ⟨node, depth, after, hat, hv⟩ := h.exists_visit_of_off he (h.of_reaches hi hr) turn
        exact ⟨machine, node, depth, after, hr, hat, hv⟩
  · rintro ⟨machine, node, depth, after, hr, hat, hv⟩
    exact h.verdict_of_visit hi hr hat hv halts

end Hooks

end Visitor

end Stencil.Walk

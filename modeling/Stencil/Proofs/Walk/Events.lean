import Stencil.Proofs.Walk.Simulation
import Stencil.Proofs.Walk.Traversal

/-!
# Walks as recursive traversals

What a walk shows of itself are its events: the visits, with what each was answered, and the hooks
that are entered and left. `Performs` is the traversal that these events are of, told by recursion and
without any stack:

* nodes are visited in order, and a node's siblings come after the walks that its visit led to;
* those are the walk over its children, if it was answered by proceeding, and the requested walks in
  the order in which they were requested;
* a walk is entered, its nodes are traversed and it is left, also when it has no nodes;
* a visit that is answered by stopping is the last, and the walks around it are left on the way out.

The machine does this and nothing else. A traversal that can be told is one that the machine makes
(`Performs.executes`, by induction on the traversal, with the rules for pieces of walks). Conversely a
run that comes to an end without an error tells a traversal (`exists_performs`). There is nothing
to recurse on but the number of steps, so that direction follows the steps, and a task that is
completed hands the rest of them on.
-/

set_option autoImplicit false

namespace Stencil.Walk

variable {σ ε η α : Type}

inductive Event (η : Type)
  | visit (node : Node) (depth : Int) (control : Control)
  | enter (hook : η)
  | leave (hook : η)

/-- An action with a record, to which one list is added if the action succeeds and another if it
fails. -/
def logging (succeeded : α → List (Event η)) (failed : List (Event η)) (action : EStateM ε σ α) :
    EStateM ε (σ × List (Event η)) α := fun whole =>
  match action whole.1 with
  | .ok answer state => .ok answer (state, whole.2 ++ succeeded answer)
  | .error error state => .error error (state, whole.2 ++ failed)

/-- What a traversal is made of: nodes to be visited, or walks that were requested. -/
inductive Task (η : Type)
  | nodes (nodes : List Node) (depth : Int)
  | walks (requests : List (Request η))

/-- The stack while a task is being done, on top of what is below it. -/
def Task.frames (task : Task η) (hook : Option η) (outer : List (Frame η)) : List (Frame η) :=
  match task with
  | .nodes pending depth => ⟨pending, depth, hook, true⟩ :: outer
  | .walks requests => requests.map Request.frame ++ outer

/-- The stack when the task has been completed. -/
def Task.rest (task : Task η) (hook : Option η) (outer : List (Frame η)) : List (Frame η) :=
  match task with
  | .nodes _ depth => ⟨[], depth, hook, true⟩ :: outer
  | .walks _ => outer

namespace Visitor

/-- The same visitor with the events of its walks on record. -/
def recorded (visitor : Visitor σ ε η) : Visitor (σ × List (Event η)) ε η where
  visit node depth :=
    logging (fun answer => [.visit node depth answer.1]) [] (visitor.visit node depth)
  enter hook := logging (fun _ => [.enter hook]) [] (visitor.enter hook)
  leave hook := logging (fun _ => [.leave hook]) [.leave hook] (visitor.leave hook)

/-- From this state, a recursive traversal does the task with these events, and ends so. -/
inductive Performs (visitor : Visitor σ ε η) :
    Task η → σ → List (Event η) → Ending → σ → Prop
  | done {depth : Int} {state : σ} : Performs visitor (.nodes [] depth) state [] .completed state
  | stop {node : Node} {rest : List Node} {depth : Int} {state after : σ}
    {requests : List (Request η)}
    (hv : visitor.visit node depth state = .ok (.stop, requests) after) :
    Performs visitor (.nodes (node :: rest) depth) state [.visit node depth .stop] .stopped after
  | cut {node : Node} {rest : List Node} {depth : Int} {state visited after : σ}
    {control : Control} {requests : List (Request η)} {events : List (Event η)}
    (hv : visitor.visit node depth state = .ok (control, requests) visited)
    (hc : control ≠ .stop)
    (hw : Performs visitor (.walks (control.walks node depth requests)) visited events .stopped
      after) :
    Performs visitor (.nodes (node :: rest) depth) state (.visit node depth control :: events)
      .stopped after
  | next {node : Node} {rest : List Node} {depth : Int} {state visited middle after : σ}
    {control : Control} {requests : List (Request η)} {events later : List (Event η)}
    {ending : Ending}
    (hv : visitor.visit node depth state = .ok (control, requests) visited)
    (hc : control ≠ .stop)
    (hw : Performs visitor (.walks (control.walks node depth requests)) visited events .completed
      middle)
    (hn : Performs visitor (.nodes rest depth) middle later ending after) :
    Performs visitor (.nodes (node :: rest) depth) state
      (.visit node depth control :: (events ++ later)) ending after
  | idle {state : σ} : Performs visitor (.walks []) state [] .completed state
  | abandon {request : Request η} {rest : List (Request η)} {state entered walked left : σ}
    {events : List (Event η)}
    (he : visitor.enterHook request.hook state = .ok () entered)
    (hw : Performs visitor (.nodes request.nodes request.depth) entered events .stopped walked)
    (hl : visitor.leaveHook request.hook walked = .ok () left) :
    Performs visitor (.walks (request :: rest)) state
      ((request.hook.map Event.enter).toList ++ events ++ (request.hook.map Event.leave).toList)
      .stopped left
  | proceed {request : Request η} {rest : List (Request η)} {state entered walked left after : σ}
    {events later : List (Event η)} {ending : Ending}
    (he : visitor.enterHook request.hook state = .ok () entered)
    (hw : Performs visitor (.nodes request.nodes request.depth) entered events .completed walked)
    (hl : visitor.leaveHook request.hook walked = .ok () left)
    (hn : Performs visitor (.walks rest) left later ending after) :
    Performs visitor (.walks (request :: rest)) state
      ((request.hook.map Event.enter).toList ++ events ++ (request.hook.map Event.leave).toList ++
        later) ending after

variable {visitor : Visitor σ ε η}

/-! ## The record -/

theorem logging_eq_ok_iff {succeeded : α → List (Event η)} {failed : List (Event η)}
    {action : EStateM ε σ α} {whole after : σ × List (Event η)} {answer : α} :
    logging succeeded failed action whole = .ok answer after ↔
      ∃ state, action whole.1 = .ok answer state ∧ after = (state, whole.2 ++ succeeded answer) := by
  unfold logging
  cases action whole.1 with
  | ok other state =>
    constructor
    · intro h
      cases h
      exact ⟨state, rfl, rfl⟩
    · rintro ⟨state, h, rfl⟩
      cases h
      rfl
  | error error state =>
    constructor
    · intro h
      cases h
    · rintro ⟨state, h, rfl⟩
      cases h

theorem matches_logging (succeeded : α → List (Event η)) (failed : List (Event η))
    {answers : α → α → Prop} (hr : ∀ answer, answers answer answer) (action : EStateM ε σ α) :
    Matches answers (fun state whole => state = whole.1) action
      (logging succeeded failed action) := by
  intro state whole hs
  subst hs
  unfold logging
  cases action whole.1 with
  | ok answer after => exact .ok (hr answer) rfl
  | error error after => exact .error rfl

/-- Putting a walk on record changes nothing about it. -/
theorem simulates_recorded (visitor : Visitor σ ε η) :
    visitor.Simulates (fun _ => True) Eq (fun state whole => state = whole.1) visitor.recorded where
  children _ _ _ := trivial
  visit _ depth := by
    refine matches_logging _ _ (fun answer => ⟨rfl, List.forall₂_same.2 fun request _ => ?_⟩) _
    refine ⟨rfl, rfl, ?_, fun _ _ => trivial⟩
    cases request.hook with
    | none => exact .none
    | some hook => exact .some rfl
  enter h := by
    subst h
    exact matches_logging _ _ (fun _ => trivial) _
  leave h := by
    subst h
    exact matches_logging _ _ (fun _ => trivial) _

theorem enterHook_recorded (hook : Option η) :
    visitor.recorded.enterHook hook =
      logging (fun _ => (hook.map Event.enter).toList) [] (visitor.enterHook hook) := by
  cases hook with
  | some hook => rfl
  | none =>
    funext whole
    show EStateM.Result.ok () whole = .ok () (whole.1, whole.2 ++ [])
    rw [List.append_nil]

theorem leaveHook_recorded (hook : Option η) :
    visitor.recorded.leaveHook hook =
      logging (fun _ => (hook.map Event.leave).toList) (hook.map Event.leave).toList
        (visitor.leaveHook hook) := by
  cases hook with
  | some hook => rfl
  | none =>
    funext whole
    show EStateM.Result.ok () whole = .ok () (whole.1, whole.2 ++ [])
    rw [List.append_nil]

theorem visit_recorded_eq_ok_iff {node : Node} {depth : Int} {state : σ} {log : List (Event η)}
    {after : σ × List (Event η)} {control : Control} {requests : List (Request η)} :
    visitor.recorded.visit node depth (state, log) = .ok (control, requests) after ↔
      ∃ visited, visitor.visit node depth state = .ok (control, requests) visited ∧
        after = (visited, log ++ [.visit node depth control]) :=
  logging_eq_ok_iff

theorem enterHook_recorded_eq_ok_iff {hook : Option η} {state : σ} {log : List (Event η)}
    {after : σ × List (Event η)} :
    visitor.recorded.enterHook hook (state, log) = .ok () after ↔
      ∃ entered, visitor.enterHook hook state = .ok () entered ∧
        after = (entered, log ++ (hook.map Event.enter).toList) := by
  rw [enterHook_recorded]
  exact logging_eq_ok_iff

theorem leaveHook_recorded_eq_ok_iff {hook : Option η} {state : σ} {log : List (Event η)}
    {after : σ × List (Event η)} :
    visitor.recorded.leaveHook hook (state, log) = .ok () after ↔
      ∃ left, visitor.leaveHook hook state = .ok () left ∧
        after = (left, log ++ (hook.map Event.leave).toList) := by
  rw [leaveHook_recorded]
  exact logging_eq_ok_iff

/-! ## From the recursion to the machine -/

/-- The task comes to this result on the machine, whatever is below it. -/
def Executes (visitor : Visitor σ ε η) (state : σ) (result : EStateM.Result ε σ Ending) :
    Task η → Prop
  | .nodes nodes depth => visitor.Yields nodes depth state result
  | .walks requests => visitor.Carries requests state result

theorem yields_cons_of_stopped {node : Node} {rest : List Node} {depth : Int} {state after : σ}
    (hw : visitor.Asks node depth (visitor.visit node depth state) (.ok .stopped after)) :
    visitor.Yields (node :: rest) depth state (.ok .stopped after) := by
  have h : visitor.Yields (node :: rest) depth state (andThen (.ok .stopped after) (.ok .completed)) :=
    yields_cons hw nofun
  exact h

theorem yields_cons_of_completed {node : Node} {rest : List Node} {depth : Int} {state middle : σ}
    {result : EStateM.Result ε σ Ending}
    (hw : visitor.Asks node depth (visitor.visit node depth state) (.ok .completed middle))
    (hn : visitor.Yields rest depth middle result) :
    visitor.Yields (node :: rest) depth state result := by
  have h : visitor.Yields (node :: rest) depth state
      (andThen (.ok .completed middle) fun _ => result) := by
    refine yields_cons hw fun reached h => ?_
    cases h
    exact hn
  exact h

theorem Performs.executes {task : Task η} {state after : σ} {events : List (Event η)}
    {ending : Ending} (h : visitor.Performs task state events ending after) (log : List (Event η)) :
    visitor.recorded.Executes (state, log) (.ok ending (after, log ++ events)) task := by
  -- over the traversal, with whatever was on the log before, since every part goes on where the last
  -- one ended
  induction h generalizing log with
  | @done depth state =>
    rw [List.append_nil]
    exact yields_nil depth (state, log)
  | @idle state =>
    rw [List.append_nil]
    exact carries_nil (state, log)
  | @stop node rest depth state after requests hv =>
    refine yields_cons_of_stopped ?_
    rw [visit_recorded_eq_ok_iff.2 ⟨after, hv, rfl⟩]
    rfl
  | @cut node rest depth state visited after control requests events hv hc hw ih =>
    have hcarries := ih (log ++ [.visit node depth control])
    rw [List.append_assoc] at hcarries
    refine yields_cons_of_stopped ?_
    rw [visit_recorded_eq_ok_iff.2 ⟨visited, hv, rfl⟩]
    exact (asks_ok hc).2 hcarries
  | @next node rest depth state visited middle after control requests events later ending hv hc hw
      hn ihw ihn =>
    have hcarries := ihw (log ++ [.visit node depth control])
    rw [List.append_assoc] at hcarries
    have hasks : visitor.recorded.Asks node depth (visitor.recorded.visit node depth (state, log))
        (.ok .completed (middle, log ++ .visit node depth control :: events)) := by
      rw [visit_recorded_eq_ok_iff.2 ⟨visited, hv, rfl⟩]
      exact (asks_ok hc).2 hcarries
    have hrest := ihn (log ++ .visit node depth control :: events)
    rw [List.append_assoc, List.cons_append] at hrest
    exact yields_cons_of_completed hasks hrest
  -- the hook of a walk that stopped is left all the same, and then the others are dropped
  | @abandon request rest state entered walked left events he hw hl ih =>
    have henter : visitor.recorded.enterHook request.hook (state, log) = _ :=
      enterHook_recorded_eq_ok_iff.2 ⟨entered, he, rfl⟩
    have hwalk := ih (log ++ (request.hook.map Event.enter).toList)
    have hleave : visitor.recorded.leaveHook request.hook
        (walked, log ++ (request.hook.map Event.enter).toList ++ events) = _ :=
      leaveHook_recorded_eq_ok_iff.2 ⟨left, hl, rfl⟩
    have hc : visitor.recorded.Carries (request :: rest) (state, log)
        (andThen (withState _ (.ok .stopped _)) (.ok .completed)) :=
      carries_cons henter hwalk hleave fun ⟨_, h⟩ => nomatch h
    rwa [List.append_assoc, List.append_assoc, ← List.append_assoc _ events] at hc
  | @proceed request rest state entered walked left after events later ending he hw hl hn ihw ihn =>
    have henter : visitor.recorded.enterHook request.hook (state, log) = _ :=
      enterHook_recorded_eq_ok_iff.2 ⟨entered, he, rfl⟩
    have hwalk := ihw (log ++ (request.hook.map Event.enter).toList)
    have hleave : visitor.recorded.leaveHook request.hook
        (walked, log ++ (request.hook.map Event.enter).toList ++ events) = _ :=
      leaveHook_recorded_eq_ok_iff.2 ⟨left, hl, rfl⟩
    have hrest := ihn (log ++ (request.hook.map Event.enter).toList ++ events ++
      (request.hook.map Event.leave).toList)
    have hc : visitor.recorded.Carries (request :: rest) (state, log)
        (andThen (withState _ (.ok .completed _)) fun _ => .ok ending (after, _)) :=
      carries_cons henter hwalk hleave fun _ => hrest
    show visitor.recorded.Carries (request :: rest) (state, log) _
    simp only [List.append_assoc] at hc ⊢
    exact hc

/-! ## Runs that end well, step by step -/

section Steps

variable {steps : Nat} {node : Node} {rest nodes : List Node} {depth : Int} {hook : Option η}
  {outer : List (Frame η)} {state final : σ} {ending : Ending}

theorem finish_error_ne {error : ε} {machine : Machine σ η} :
    visitor.finish (.error error) machine ≠ ⟨.ok ending, final⟩ := by
  unfold finish
  cases visitor.unwind machine.frames machine.state with
  | ok _ after => exact nofun
  | error other after => exact nofun

theorem exists_visit_of_runFor
    (h : visitor.runFor steps ⟨⟨node :: rest, depth, hook, true⟩ :: outer, state⟩ =
      some ⟨.ok ending, final⟩) :
    ∃ fewer control requests visited, steps = fewer + 1 ∧
      visitor.visit node depth state = .ok (control, requests) visited ∧
      ((control = .stop ∧ ⟨.ok ending, final⟩ =
          visitor.finish (.ok .stopped) ⟨⟨rest, depth, hook, true⟩ :: outer, visited⟩) ∨
        (control ≠ .stop ∧
          visitor.runFor fewer ⟨(control.walks node depth requests).map Request.frame ++
            ⟨rest, depth, hook, true⟩ :: outer, visited⟩ = some ⟨.ok ending, final⟩)) := by
  cases steps with
  | zero => cases h
  | succ fewer =>
    simp only [runFor, step, if_true] at h
    cases hv : visitor.visit node depth state with
    | error error after =>
      simp only [hv] at h
      exact absurd (Option.some.inj h) finish_error_ne
    | ok answer visited =>
      obtain ⟨control, requests⟩ := answer
      refine ⟨fewer, control, requests, visited, rfl, rfl, ?_⟩
      by_cases hc : control = .stop
      · subst hc
        simp only [hv] at h
        exact .inl ⟨rfl, (Option.some.inj h).symm⟩
      · simp only [hv, frames_eq_map_walks] at h
        exact .inr ⟨hc, h⟩

theorem exists_enter_of_runFor {request : Request η}
    (h : visitor.runFor steps ⟨request.frame :: outer, state⟩ = some ⟨.ok ending, final⟩) :
    ∃ fewer entered, steps = fewer + 1 ∧
      visitor.enterHook request.hook state = .ok () entered ∧
      visitor.runFor fewer ⟨⟨request.nodes, request.depth, request.hook, true⟩ :: outer, entered⟩ =
        some ⟨.ok ending, final⟩ := by
  cases steps with
  | zero => cases h
  | succ fewer =>
    simp only [runFor, step, Request.frame, Bool.false_eq_true, if_false] at h
    cases he : visitor.enterHook request.hook state with
    | error error after =>
      simp only [he] at h
      exact absurd (Option.some.inj h) finish_error_ne
    | ok _ entered =>
      simp only [he] at h
      exact ⟨fewer, entered, rfl, rfl, h⟩

theorem exists_leave_of_runFor
    (h : visitor.runFor steps ⟨⟨[], depth, hook, true⟩ :: outer, state⟩ =
      some ⟨.ok ending, final⟩) :
    ∃ fewer left, steps = fewer + 1 ∧ visitor.leaveHook hook state = .ok () left ∧
      visitor.runFor fewer ⟨outer, left⟩ = some ⟨.ok ending, final⟩ := by
  cases steps with
  | zero => cases h
  | succ fewer =>
    simp only [runFor, step, if_true] at h
    cases hl : visitor.leaveHook hook state with
    | error error after =>
      simp only [hl] at h
      exact absurd (Option.some.inj h) finish_error_ne
    | ok _ left =>
      simp only [hl] at h
      exact ⟨fewer, left, rfl, rfl, h⟩

theorem exists_leave_of_finish
    (h : ⟨.ok ending, final⟩ =
      visitor.finish (.ok .stopped) ⟨⟨nodes, depth, hook, true⟩ :: outer, state⟩) :
    ∃ left, visitor.leaveHook hook state = .ok () left ∧
      ⟨.ok ending, final⟩ = visitor.finish (.ok .stopped) ⟨outer, left⟩ := by
  cases hl : visitor.leaveHook hook state with
  | ok _ left => exact ⟨left, rfl, h.trans (finish_left hl)⟩
  | error error after =>
    simp only [finish, unwind, if_true, bind, EStateM.bind, hl] at h
    cases h

end Steps

/-! ## From the machine to the recursion -/

/-- The walk with these frames left has this outcome, and if the task before them was completed, it
takes no more than so many steps. -/
def ResumesWithin (visitor : Visitor σ ε η) (steps : Nat) (frames : List (Frame η))
    (outcome : Outcome σ ε) (state : σ) : Ending → Prop
  | .completed => ∃ fewer ≤ steps, visitor.runFor fewer ⟨frames, state⟩ = some outcome
  | .stopped => outcome = visitor.finish (.ok .stopped) ⟨frames, state⟩

theorem ResumesWithin.mono {steps more : Nat} {frames : List (Frame η)} {outcome : Outcome σ ε}
    {state : σ} {ending : Ending} (h : visitor.ResumesWithin steps frames outcome state ending)
    (hle : steps ≤ more) : visitor.ResumesWithin more frames outcome state ending := by
  cases ending with
  | completed =>
    obtain ⟨fewer, hf, hr⟩ := h
    exact ⟨fewer, Nat.le_trans hf hle, hr⟩
  | stopped => exact h

theorem exists_performs {steps : Nat} {task : Task η} {hook : Option η} {outer : List (Frame η)}
    {state : σ} {log : List (Event η)} {ending : Ending} {final : σ × List (Event η)}
    (h : visitor.recorded.runFor steps ⟨task.frames hook outer, (state, log)⟩ =
      some ⟨.ok ending, final⟩) :
    ∃ events reached after, visitor.Performs task state events reached after ∧
      visitor.recorded.ResumesWithin steps (task.rest hook outer) ⟨.ok ending, final⟩
        (after, log ++ events) reached := by
  -- the steps left for a sibling or a further walk are those that its predecessor did not take, so
  -- the induction has to reach below the last step
  induction steps using Nat.strongRecOn generalizing task hook outer state log with
  | ind steps ih =>
    cases task with
    | nodes nodes depth =>
      cases nodes with
      | nil =>
        refine ⟨[], .completed, state, .done, ?_⟩
        rw [List.append_nil]
        exact ⟨steps, Nat.le_refl _, h⟩
      | cons node rest =>
        obtain ⟨fewer, control, requests, visited, rfl, hv, hnext⟩ := exists_visit_of_runFor h
        obtain ⟨visited, hvisit, rfl⟩ := visit_recorded_eq_ok_iff.1 hv
        rcases hnext with ⟨rfl, hfinish⟩ | ⟨hc, hrun⟩
        · exact ⟨_, .stopped, visited, .stop hvisit, hfinish⟩
        · obtain ⟨events, reached, middle, hw, hr⟩ :=
            @ih fewer (Nat.lt_succ_self fewer) (.walks _) none _ _ _ hrun
          rw [List.append_assoc] at hr
          cases reached with
          | stopped => exact ⟨_, .stopped, middle, .cut hvisit hc hw, hr⟩
          | completed =>
            -- the siblings come after the walks that the visit asked for
            obtain ⟨left, hle, hrest⟩ := hr
            obtain ⟨later, reached, after, hn, hr⟩ :=
              @ih left (by omega) (.nodes rest depth) _ _ _ _ hrest
            rw [List.append_assoc] at hr
            exact ⟨_, reached, after, .next hvisit hc hw hn, hr.mono (by omega)⟩
    | walks requests =>
      cases requests with
      | nil =>
        refine ⟨[], .completed, state, .idle, ?_⟩
        rw [List.append_nil]
        exact ⟨steps, Nat.le_refl _, h⟩
      | cons request rest =>
        obtain ⟨fewer, entered, rfl, he, hrun⟩ := exists_enter_of_runFor h
        obtain ⟨entered, henter, rfl⟩ := enterHook_recorded_eq_ok_iff.1 he
        obtain ⟨events, reached, walked, hw, hr⟩ :=
          @ih fewer (Nat.lt_succ_self fewer) (.nodes request.nodes request.depth) _ _ _ _ hrun
        cases reached with
        | stopped =>
          obtain ⟨left, hl, hfinish⟩ := exists_leave_of_finish hr
          obtain ⟨left, hleave, rfl⟩ := leaveHook_recorded_eq_ok_iff.1 hl
          refine ⟨_, .stopped, left, .abandon henter hw hleave, ?_⟩
          simp only [List.append_assoc] at hfinish ⊢
          exact hfinish.trans (finish_waiting _ rest outer _)
        | completed =>
          obtain ⟨more, hle, hrest⟩ := hr
          obtain ⟨last, left, rfl, hl, hrun⟩ := exists_leave_of_runFor hrest
          obtain ⟨left, hleave, rfl⟩ := leaveHook_recorded_eq_ok_iff.1 hl
          obtain ⟨later, reached, after, hn, hr⟩ :=
            @ih last (by omega) (.walks rest) none _ _ _ hrun
          refine ⟨_, reached, after, .proceed henter hw hleave hn, ?_⟩
          simp only [List.append_assoc] at hr ⊢
          exact hr.mono (by omega)

/-! ## Endings -/

/-- No visit among these events was answered by stopping. -/
def Unstopped (events : List (Event η)) : Prop :=
  ∀ node depth, Event.visit node depth .stop ∉ events

theorem unstopped_append {events others : List (Event η)} :
    Unstopped (events ++ others) ↔ Unstopped events ∧ Unstopped others := by
  constructor
  · intro h
    exact ⟨fun node depth hm => h node depth (List.mem_append_left _ hm),
      fun node depth hm => h node depth (List.mem_append_right _ hm)⟩
  · rintro ⟨he, ho⟩ node depth hm
    rcases List.mem_append.1 hm with hm | hm
    · exact he node depth hm
    · exact ho node depth hm

theorem unstopped_visit_cons {node : Node} {depth : Int} {control : Control}
    {events : List (Event η)} (hc : control ≠ .stop) :
    Unstopped (.visit node depth control :: events) ↔ Unstopped events := by
  constructor
  · intro h other depth hm
    exact h other depth (List.mem_cons_of_mem _ hm)
  · intro h other depth hm
    rcases List.mem_cons.1 hm with heq | hm
    · cases heq
      exact hc rfl
    · exact h other depth hm

theorem unstopped_enter (hook : Option η) : Unstopped (hook.map Event.enter).toList := by
  intro node depth hm
  cases hook <;> simp at hm

theorem unstopped_leave (hook : Option η) : Unstopped (hook.map Event.leave).toList := by
  intro node depth hm
  cases hook <;> simp at hm

theorem Performs.unstopped_iff {task : Task η} {state after : σ} {events : List (Event η)}
    {ending : Ending} (h : visitor.Performs task state events ending after) :
    ending = .completed ↔ Unstopped events := by
  induction h with
  | done => exact iff_of_true rfl fun _ _ hm => absurd hm List.not_mem_nil
  | idle => exact iff_of_true rfl fun _ _ hm => absurd hm List.not_mem_nil
  | @stop node rest depth =>
    exact iff_of_false nofun fun h => h node depth List.mem_cons_self
  | cut _ hc _ ih =>
    rw [unstopped_visit_cons hc]
    exact ih
  | next _ hc _ _ ihw ihn =>
    rw [unstopped_visit_cons hc, unstopped_append, ← ihw, ihn]
    exact (and_iff_right rfl).symm
  | abandon _ _ _ ih =>
    rw [unstopped_append, unstopped_append, ← ih]
    exact iff_of_false nofun fun h => nomatch h.1.2
  | proceed _ _ _ _ ihw ihn =>
    rw [unstopped_append, unstopped_append, unstopped_append, ← ihw, ihn]
    constructor
    · intro h
      exact ⟨⟨⟨unstopped_enter _, rfl⟩, unstopped_leave _⟩, h⟩
    · intro h
      exact h.2

/-! ## Whole walks -/

theorem performs_of_run {nodes : List Node} {state after : σ} {events : List (Event η)}
    {ending : Ending} {halts : visitor.recorded.Halts (start nodes (state, []))}
    (h : visitor.recorded.run (start nodes (state, [])) halts = ⟨.ok ending, (after, events)⟩) :
    visitor.Performs (.nodes nodes 0) state events ending after := by
  obtain ⟨steps, hs⟩ := exists_runFor_eq_some visitor.recorded (start nodes (state, [])) halts
  rw [h] at hs
  have hs : visitor.recorded.runFor steps ⟨[Request.frame ⟨nodes, 0, none⟩], (state, [])⟩ = _ := hs
  obtain ⟨fewer, entered, rfl, he, hrun⟩ := exists_enter_of_runFor hs
  cases he
  obtain ⟨events, reached, after, hp, hr⟩ :=
    @exists_performs _ _ _ _ fewer (.nodes nodes 0) none [] _ _ _ _ hrun
  cases reached with
  | stopped =>
    cases hr
    exact hp
  | completed =>
    -- nothing is left but the frame of the walk itself
    obtain ⟨more, _, hrest⟩ := hr
    obtain ⟨last, left, rfl, hl, hend⟩ := exists_leave_of_runFor hrest
    cases hl
    cases last with
    | zero => cases hend
    | succ last =>
      cases hend
      exact hp

/-- **A walk is a recursive traversal.** The walks that end without an error, with their events, are
those of the recursion; and a walk is completed iff no visit was answered by stopping. -/
theorem run_recorded_iff (visitor : Visitor σ ε η) (nodes : List Node) (state after : σ)
    (events : List (Event η)) (ending : Ending) :
    (∃ halts recorded,
        visitor.run (start nodes state) halts = ⟨.ok ending, after⟩ ∧
        visitor.recorded.run (start nodes (state, [])) recorded = ⟨.ok ending, (after, events)⟩) ↔
      visitor.Performs (.nodes nodes 0) state events ending after ∧
        (ending = .completed ↔ Unstopped events) := by
  constructor
  · rintro ⟨_, _, _, h⟩
    have hp := performs_of_run h
    exact ⟨hp, hp.unstopped_iff⟩
  · rintro ⟨hp, _⟩
    have hy : visitor.recorded.Yields nodes 0 (state, []) (.ok ending (after, events)) :=
      hp.executes []
    -- the traversal takes finitely many steps, which is why the walk halts
    obtain ⟨steps, hs⟩ := hy.ends
    have hrecorded := halts_of_runFor hs
    have hstart : Machine.Alike (fun _ => True) (Eq : η → η → Prop)
        (fun state (whole : σ × List (Event η)) => state = whole.1)
        (start nodes state) (start nodes (state, [])) :=
      start_alike (fun _ _ => trivial) rfl
    -- without the log the walk is the same, so it halts as well
    have halts := visitor.simulates_recorded.halts hstart hrecorded
    have hrun := run_eq_of_ends hrecorded hy.ends
    obtain ⟨hverdict, hstate⟩ := visitor.simulates_recorded.run hstart halts hrecorded
    rw [hrun] at hverdict hstate
    refine ⟨halts, hrecorded, ?_, hrun⟩
    rw [show visitor.run (start nodes state) halts = ⟨_, _⟩ from rfl, hverdict, hstate]
    rfl

end Visitor

end Stencil.Walk

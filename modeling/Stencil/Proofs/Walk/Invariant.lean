import Mathlib.Logic.Relation
import Stencil.Proofs.Walk.Traversal

/-!
# What a walk keeps

The hooks that a walk has entered and not yet left can be read off its stack: they are the hooks of
the frames that were entered, innermost first. An invariant of a walk is a relation between these
hooks and the state. It is enough to look at the visitor to know that it is kept: a visit must keep
it, entering a hook must establish it for one hook more, and leaving a hook must succeed and
establish it for one hook less.

Given that much, three things follow. The invariant holds at every machine that a walk comes through
(`Maintains.of_reaches`), so in particular whenever a node is visited. Unwinding does not change the
verdict, because it has no error of its own to report. And the walk ends with no hook entered, in
whatever way it ends (`Maintains.run`).

Where a hook may fail to be left, a relation can still be kept for the hooks that remain (`Keeps`). Then
it holds along the walk as well, but nothing is said about its end.
-/

set_option autoImplicit false

namespace Stencil.Walk

variable {σ ε η : Type}

/-- The hooks that have been entered and not yet left, innermost first. -/
def hooksOf (frames : List (Frame η)) : List η :=
  frames.filterMap fun frame => if frame.entered then frame.hook else none

theorem hooksOf_cons_entered (nodes : List Node) (depth : Int) (hook : Option η)
    (outer : List (Frame η)) :
    hooksOf (⟨nodes, depth, hook, true⟩ :: outer) = hook.toList ++ hooksOf outer := by
  cases hook <;> rfl

theorem hooksOf_cons_waiting (nodes : List Node) (depth : Int) (hook : Option η)
    (outer : List (Frame η)) :
    hooksOf (⟨nodes, depth, hook, false⟩ :: outer) = hooksOf outer := rfl

theorem hooksOf_waiting (requests : List (Request η)) (outer : List (Frame η)) :
    hooksOf (requests.map Request.frame ++ outer) = hooksOf outer := by
  induction requests with
  | nil => rfl
  | cons request rest ih =>
    rw [List.map_cons, List.cons_append]
    exact ih

namespace Visitor

/-- One walk in progress comes after another. -/
def Reaches (visitor : Visitor σ ε η) : Machine σ η → Machine σ η → Prop :=
  Relation.ReflTransGen fun machine next => visitor.Leads next machine

/-- The visitor keeps a relation between the hooks entered and the state. -/
structure Maintains (visitor : Visitor σ ε η) (inv : List η → σ → Prop) : Prop where
  visit : ∀ {hooks state} node depth, inv hooks state →
    inv hooks (stateOf (visitor.visit node depth state))
  enter : ∀ {hooks state entered} hook, inv hooks state →
    visitor.enter hook state = .ok () entered → inv (hook :: hooks) entered
  refuse : ∀ {hooks state after error} hook, inv hooks state →
    visitor.enter hook state = .error error after → inv hooks after
  leave : ∀ {hooks state} hook, inv (hook :: hooks) state →
    ∃ left, visitor.leave hook state = .ok () left ∧ inv hooks left

/-- The visitor keeps a relation between the hooks entered and the state, also when a hook fails to be
left. -/
structure Keeps (visitor : Visitor σ ε η) (inv : List η → σ → Prop) : Prop where
  visit : ∀ {hooks state} node depth, inv hooks state →
    inv hooks (stateOf (visitor.visit node depth state))
  enter : ∀ {hooks state entered} hook, inv hooks state →
    visitor.enter hook state = .ok () entered → inv (hook :: hooks) entered
  refuse : ∀ {hooks state after error} hook, inv hooks state →
    visitor.enter hook state = .error error after → inv hooks after
  leave : ∀ {hooks state} hook, inv (hook :: hooks) state →
    inv hooks (stateOf (visitor.leave hook state))

variable {visitor : Visitor σ ε η} {inv : List η → σ → Prop}

theorem Maintains.keeps (h : visitor.Maintains inv) : visitor.Keeps inv where
  visit := h.visit
  enter := h.enter
  refuse := h.refuse
  leave {hooks state} hook hi := by
    obtain ⟨left, hl, hinv⟩ := h.leave hook hi
    rw [hl]
    exact hinv

/-! ## Hooks that may be absent -/

theorem Keeps.enterHook (h : visitor.Keeps inv) {hooks : List η} {state entered : σ}
    {hook : Option η} (hi : inv hooks state)
    (he : visitor.enterHook hook state = .ok () entered) : inv (hook.toList ++ hooks) entered := by
  cases hook with
  | none =>
    cases he
    exact hi
  | some hook => exact h.enter hook hi he

theorem Keeps.refuseHook (h : visitor.Keeps inv) {hooks : List η} {state after : σ}
    {error : ε} {hook : Option η} (hi : inv hooks state)
    (he : visitor.enterHook hook state = .error error after) : inv hooks after := by
  cases hook with
  | none => cases he
  | some hook => exact h.refuse hook hi he

theorem Keeps.leaveHook (h : visitor.Keeps inv) {hooks : List η} {state : σ} {hook : Option η}
    (hi : inv (hook.toList ++ hooks) state) :
    inv hooks (stateOf (visitor.leaveHook hook state)) := by
  cases hook with
  | none => exact hi
  | some hook => exact h.leave hook hi

theorem Maintains.leaveHook (h : visitor.Maintains inv) {hooks : List η} {state : σ}
    {hook : Option η} (hi : inv (hook.toList ++ hooks) state) :
    ∃ left, visitor.leaveHook hook state = .ok () left ∧ inv hooks left := by
  cases hook with
  | none => exact ⟨state, rfl, hi⟩
  | some hook => exact h.leave hook hi

/-! ## Steps and runs -/

/-- Each step keeps the invariant, and so does the step that ends the walk. -/
theorem Keeps.of_step (h : visitor.Keeps inv) {machine : Machine σ η}
    (hi : inv (hooksOf machine.frames) machine.state) :
    match visitor.step machine with
    | .on next => inv (hooksOf next.frames) next.state
    | .off _ last => inv (hooksOf last.frames) last.state := by
  obtain ⟨frames, state⟩ := machine
  cases frames with
  | nil => exact hi
  | cons frame outer =>
    obtain ⟨pending, depth, hook, entered⟩ := frame
    -- one case for each deed: a hook is entered or left, or a node is visited
    cases entered with
    | false =>
      rw [hooksOf_cons_waiting] at hi
      simp only [step, Bool.false_eq_true, if_false]
      cases he : visitor.enterHook hook state with
      | ok u after =>
        dsimp only
        rw [hooksOf_cons_entered]
        exact h.enterHook hi he
      | error error after => exact h.refuseHook hi he
    | true =>
      simp only [step, if_true]
      cases pending with
      | nil =>
        rw [hooksOf_cons_entered] at hi
        have hleave := h.leaveHook hi
        cases hl : visitor.leaveHook hook state with
        | ok u left =>
          rw [hl] at hleave
          exact hleave
        | error error left =>
          rw [hl] at hleave
          exact hleave
      | cons node rest =>
        have hvisit := h.visit node depth hi
        dsimp only
        cases hv : visitor.visit node depth state with
        | error error after =>
          rw [hv] at hvisit
          exact hvisit
        | ok answer after =>
          rw [hv] at hvisit
          obtain ⟨control, requests⟩ := answer
          cases control with
          | stop => exact hvisit
          -- new walks wait to be entered, so they open no hooks
          | proceed | skip =>
            dsimp only
            rw [frames_eq_map_walks, hooksOf_waiting]
            exact hvisit

theorem Maintains.of_step (h : visitor.Maintains inv) {machine : Machine σ η}
    (hi : inv (hooksOf machine.frames) machine.state) :
    match visitor.step machine with
    | .on next => inv (hooksOf next.frames) next.state
    | .off _ last => inv (hooksOf last.frames) last.state :=
  h.keeps.of_step hi

theorem Keeps.of_reaches (h : visitor.Keeps inv) {machine later : Machine σ η}
    (hi : inv (hooksOf machine.frames) machine.state) (hr : visitor.Reaches machine later) :
    inv (hooksOf later.frames) later.state := by
  induction hr with
  | refl => exact hi
  | tail _ leads ih =>
    have hs := h.of_step ih
    rw [show visitor.step _ = _ from leads] at hs
    exact hs

theorem Maintains.of_reaches (h : visitor.Maintains inv) {machine later : Machine σ η}
    (hi : inv (hooksOf machine.frames) machine.state) (hr : visitor.Reaches machine later) :
    inv (hooksOf later.frames) later.state :=
  h.keeps.of_reaches hi hr

/-- What every visit and every hook preserves is kept, whichever hooks have been entered. -/
theorem keeps_of_preserved {property : σ → Prop}
    (hv : ∀ node depth state, property state → property (stateOf (visitor.visit node depth state)))
    (he : ∀ hook state, property state → property (stateOf (visitor.enter hook state)))
    (hl : ∀ hook state, property state → property (stateOf (visitor.leave hook state))) :
    visitor.Keeps fun _ state => property state where
  visit {_ state} node depth h := hv node depth state h
  enter {_ state entered} hook h heq := by
    have hentered := he hook state h
    rw [heq] at hentered
    exact hentered
  refuse {_ state after error} hook h heq := by
    have hafter := he hook state h
    rw [heq] at hafter
    exact hafter
  leave {_ state} hook h := hl hook state h

/-- Unwinding leaves every hook that was entered, and has nothing to report. -/
theorem Maintains.unwind (h : visitor.Maintains inv) (frames : List (Frame η)) {state : σ}
    (hi : inv (hooksOf frames) state) :
    ∃ left, visitor.unwind frames state = .ok () left ∧ inv [] left := by
  induction frames generalizing state with
  | nil => exact ⟨state, rfl, hi⟩
  | cons frame outer ih =>
    obtain ⟨pending, depth, hook, entered⟩ := frame
    cases entered with
    | false => exact ih hi
    | true =>
      rw [hooksOf_cons_entered] at hi
      obtain ⟨middle, hl, hinv⟩ := h.leaveHook hi
      obtain ⟨left, hu, hleft⟩ := ih hinv
      refine ⟨left, ?_, hleft⟩
      simp only [Visitor.unwind, if_true, bind, EStateM.bind, hl, hu]

theorem Maintains.finish (h : visitor.Maintains inv) {machine : Machine σ η}
    (hi : inv (hooksOf machine.frames) machine.state) (verdict : Except ε Ending) :
    (visitor.finish verdict machine).verdict = verdict ∧
      inv [] (visitor.finish verdict machine).state := by
  obtain ⟨left, hu, hinv⟩ := h.unwind machine.frames hi
  rw [Visitor.finish, hu]
  exact ⟨rfl, hinv⟩

/-- However a walk ends, it ends with every hook left. -/
theorem Maintains.run (h : visitor.Maintains inv) {machine : Machine σ η}
    (hi : inv (hooksOf machine.frames) machine.state) (halts : visitor.Halts machine) :
    inv [] (visitor.run machine halts).state := by
  induction halts with
  | intro machine _ ih =>
    have hs := h.of_step hi
    cases turn : visitor.step machine with
    | on next =>
      rw [turn] at hs
      rw [run_of_on turn]
      exact ih next turn hs
    | off verdict last =>
      rw [turn] at hs
      rw [run_of_off turn]
      exact (h.finish hs verdict).2

end Visitor

end Stencil.Walk

import Stencil.Proofs.Walk.Steps

/-!
# Walks that part

Two visitors can have the same hooks and differ in some visits. From the same machine their walks then
take the same steps for as long as the visits they come to are the same. So either the walks are the same
altogether, or there is a machine that both come to and a node that they visit there to different effect
(`run_eq_or_parts`). Up to that machine nothing needs to be compared, which leaves one visit to look at.

To say how a walk ends after such a visit it helps to know where its error came from. It is the error of
a visit that the walk came to, or of a hook (`raises_of_verdict`).
-/

set_option autoImplicit false

namespace Stencil.Walk.Visitor

variable {σ ε η : Type} {visitor other : Visitor σ ε η} {start machine : Machine σ η}

/-! ## Visitors with the same hooks -/

section Parting

variable (he : visitor.enter = other.enter) (hl : visitor.leave = other.leave)

include he in
theorem enterHook_eq : visitor.enterHook = other.enterHook := by
  funext hook
  cases hook with
  | none => rfl
  | some hook => exact congrFun he hook

include hl in
theorem leaveHook_eq : visitor.leaveHook = other.leaveHook := by
  funext hook
  cases hook with
  | none => rfl
  | some hook => exact congrFun hl hook

include hl in
theorem finish_eq (verdict : Except ε Ending) (machine : Machine σ η) :
    visitor.finish verdict machine = other.finish verdict machine := by
  have hunwind : visitor.unwind machine.frames = other.unwind machine.frames := by
    induction machine.frames with
    | nil => rfl
    | cons frame outer ih => rw [unwind, unwind, ih, leaveHook_eq hl]
  rw [finish, finish, hunwind]

include he hl

/-- The steps from a machine are the same if the visits are that it may be about to make. -/
theorem step_eq (hv : ∀ node depth, machine.IsAt node depth →
      visitor.visit node depth machine.state = other.visit node depth machine.state) :
    visitor.step machine = other.step machine := by
  obtain ⟨frames, state⟩ := machine
  cases frames with
  | nil => rfl
  | cons frame outer =>
    obtain ⟨pending, depth, hook, entered⟩ := frame
    cases entered with
    | false => simp only [step, enterHook_eq he, Bool.false_eq_true, if_false]
    | true =>
      cases pending with
      | nil => simp only [step, leaveHook_eq hl, if_true]
      | cons node rest =>
        have hvisit := hv node depth ⟨rest, hook, outer, rfl⟩
        simp only [step, hvisit, if_true]

/-- **Walks are the same until a visit is not.** -/
theorem run_eq_or_parts (halts : visitor.Halts start) (halts' : other.Halts start) :
    visitor.run start halts = other.run start halts' ∨
      ∃ machine node depth, visitor.Reaches start machine ∧ other.Reaches start machine ∧
        machine.IsAt node depth ∧
        visitor.visit node depth machine.state ≠ other.visit node depth machine.state := by
  -- the induction is on the halting of the first walk, and goes over all machines that both come to
  suffices hall : ∀ machine (_ : visitor.Halts machine) (halts : visitor.Halts machine)
      (halts' : other.Halts machine), visitor.Reaches start machine → other.Reaches start machine →
      visitor.run machine halts = other.run machine halts' ∨
        ∃ machine node depth, visitor.Reaches start machine ∧ other.Reaches start machine ∧
          machine.IsAt node depth ∧
          visitor.visit node depth machine.state ≠ other.visit node depth machine.state from
    hall start halts halts halts' .refl .refl
  intro machine acc
  induction acc with
  | intro machine _ ih =>
    intro halts halts' hr hr'
    by_cases hv : ∀ node depth, machine.IsAt node depth →
        visitor.visit node depth machine.state = other.visit node depth machine.state
    · have hstep := step_eq he hl hv
      cases turn : visitor.step machine with
      | on next =>
        have turn' := hstep.symm.trans turn
        rw [run_of_on turn, run_of_on turn']
        exact ih next turn _ _ (hr.tail turn) (hr'.tail turn')
      | off verdict last =>
        have turn' := hstep.symm.trans turn
        rw [run_of_off turn, run_of_off turn', finish_eq hl]
        exact .inl rfl
    · push Not at hv
      obtain ⟨node, depth, hat, hne⟩ := hv
      exact .inr ⟨machine, node, depth, hr, hr', hat, hne⟩

end Parting

/-! ## Where an error comes from -/

/-- What may raise an error on a walk. -/
inductive Raises (visitor : Visitor σ ε η) (start : Machine σ η) (error : ε) : Prop
  | visit {machine : Machine σ η} {node : Node} {depth : Int} {after : σ}
    (hr : visitor.Reaches start machine) (hat : machine.IsAt node depth)
    (hv : visitor.visit node depth machine.state = .error error after)
  | enter {hook : η} {state after : σ} (h : visitor.enter hook state = .error error after)
  | leave {hook : η} {state after : σ} (h : visitor.leave hook state = .error error after)

theorem raises_of_leaveHook {hook : Option η} {state after : σ} {error : ε}
    (h : visitor.leaveHook hook state = .error error after) : visitor.Raises start error := by
  cases hook with
  | none => cases h
  | some hook => exact .leave h

theorem raises_of_step {last : Machine σ η} {error : ε} (hr : visitor.Reaches start machine)
    (turn : visitor.step machine = .off (.error error) last) : visitor.Raises start error := by
  obtain ⟨frames, state⟩ := machine
  cases frames with
  | nil => cases turn
  | cons frame outer =>
    obtain ⟨pending, depth, hook, entered⟩ := frame
    -- a step raises what a hook or a visit raises, and it calls one of these at most
    cases entered with
    | false =>
      simp only [step, Bool.false_eq_true, if_false] at turn
      cases he : visitor.enterHook hook state with
      | ok u after =>
        rw [he] at turn
        cases turn
      | error other after =>
        rw [he] at turn
        cases turn
        cases hook with
        | none => cases he
        | some hook => exact .enter he
    | true =>
      cases pending with
      | nil =>
        simp only [step, if_true] at turn
        cases hl : visitor.leaveHook hook state with
        | ok u after =>
          rw [hl] at turn
          cases turn
        | error other after =>
          rw [hl] at turn
          cases turn
          exact raises_of_leaveHook hl
      | cons node rest =>
        simp only [step, if_true] at turn
        cases hv : visitor.visit node depth state with
        | ok answer after =>
          rw [hv] at turn
          obtain ⟨control, requests⟩ := answer
          cases control with
          | proceed | skip | stop => cases turn
        | error other after =>
          rw [hv] at turn
          cases turn
          exact .visit hr ⟨rest, hook, outer, rfl⟩ hv

theorem raises_of_unwind {frames : List (Frame η)} {state after : σ} {error : ε}
    (h : visitor.unwind frames state = .error error after) : visitor.Raises start error := by
  induction frames generalizing state with
  | nil => cases h
  | cons frame outer ih =>
    simp only [unwind] at h
    split at h
    · simp only [bind, EStateM.bind] at h
      cases hl : visitor.leaveHook frame.hook state with
      | ok u left =>
        rw [hl] at h
        exact ih h
      | error other left =>
        rw [hl] at h
        cases h
        exact raises_of_leaveHook hl
    · exact ih h

theorem raises_of_verdict (halts : visitor.Halts start) {error : ε}
    (h : (visitor.run start halts).verdict = .error error) : visitor.Raises start error := by
  suffices hall : ∀ machine (_ : visitor.Halts machine) (halts : visitor.Halts machine),
      visitor.Reaches start machine → (visitor.run machine halts).verdict = .error error →
      visitor.Raises start error from hall start halts halts .refl h
  intro machine acc
  induction acc with
  | intro machine _ ih =>
    intro halts hr h
    cases turn : visitor.step machine with
    | on next =>
      rw [run_of_on turn] at h
      exact ih next turn _ (hr.tail turn) h
    | off verdict last =>
      rw [run_of_off turn, finish] at h
      -- a hook that raises while the stack is unwound takes the place of the verdict
      cases hu : visitor.unwind last.frames last.state with
      | ok u left =>
        rw [hu] at h
        have hverdict : verdict = .error error := h
        subst hverdict
        exact raises_of_step hr turn
      | error other left =>
        rw [hu] at h
        cases h
        exact raises_of_unwind hu

end Stencil.Walk.Visitor

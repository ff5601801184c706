import Stencil.Proofs.Render.Direct

/-!
# Scopes that can be left

While a walk is unwound, the first hook that fails to be left ends the unwinding, and the ones further
out are never left; a recursion would leave them all. So whatever is to be said about scopes and
errors together needs to know that a scope that was entered can be left again. It holds of a context
without scopes, of one whose `pop` never fails, and of a stack of values, which fails only when nothing
is pushed (`Host.Leavable`).

What these have in common is a level: how many scopes there are to leave, as far as that matters.
Entering a scope raises it, leaving one lowers it and cannot fail above zero, and everything else keeps
it (`Host.Levels`). An action that keeps the level can be rendered in a scope, and that keeps the level
too (`keepsLevels_inScope`).
-/

set_option autoImplicit false

namespace Stencil

open Walk

variable {ω ε ν : Type}

/-- A scope that was entered can be left. There are two ways for that to be so: leaving a scope never
fails, be it that there are no scopes at all, or the context is a stack of values. -/
inductive Host.Leavable (host : Host ω ε ν) : Prop
  | always (h : ∀ scopes, host.context.scopes = some scopes →
      ∀ world, ∃ value left, scopes.pop world = .ok value left)
  | stacked {graph : Graph ν} (seat : host.Seat graph)

/-- A measure of how many scopes can be left: it grows when one is entered, and all else keeps it. -/
structure Host.Levels (host : Host ω ε ν) (level : Nat → ω → Prop) : Prop where
  preserves : ∀ n, host.Preserves (level n)
  push : ∀ {scopes}, host.context.scopes = some scopes → ∀ {n world} value, level n world →
    ∀ {entered}, scopes.push value world = .ok () entered → level (n + 1) entered
  refuse : ∀ {scopes}, host.context.scopes = some scopes → ∀ {n world} value, level n world →
    ∀ {error after}, scopes.push value world = .error error after → level n after
  pop : ∀ {scopes}, host.context.scopes = some scopes → ∀ {n world}, level (n + 1) world →
    ∃ value left, scopes.pop world = .ok value left ∧ level n left

theorem Host.Seat.levels {host : Host ω ε ν} {graph : Graph ν} (seat : host.Seat graph) :
    host.Levels fun n world => n ≤ (seat.get world).pushed.length where
  preserves n := seat.preserves fun stack => n ≤ stack.pushed.length
  push hs n world value h entered he := by
    rw [seat.push_eq hs] at he
    cases he
    rw [seat.get_set]
    simpa [ContextStack.push] using h
  refuse hs n world value h error after he := by
    rw [seat.push_eq hs] at he
    cases he
  pop hs n world h := by
    cases hp : (seat.get world).pushed with
    | nil => simp [hp] at h
    | cons value pushed =>
      refine ⟨value, _, seat.pop_eq hs hp, ?_⟩
      rw [seat.get_set]
      simpa [hp] using h

theorem Host.Leavable.levels {host : Host ω ε ν} (h : host.Leavable) :
    ∃ level : Nat → ω → Prop, host.Levels level ∧ ∀ world, level 0 world := by
  cases h with
  | always hpop =>
    refine ⟨fun _ _ => True, ?_, fun _ => trivial⟩
    exact {
      preserves := fun _ => ⟨fun _ _ _ => trivial, fun _ _ _ => trivial, fun _ _ _ => trivial,
        fun _ _ _ => trivial⟩
      push := fun _ _ _ _ _ _ _ => trivial
      refuse := fun _ _ _ _ _ _ _ _ => trivial
      pop := fun hs _ world _ =>
        let ⟨value, left, hl⟩ := hpop _ hs world
        ⟨value, left, hl, trivial⟩ }
  | stacked seat => exact ⟨_, seat.levels, fun _ => Nat.zero_le _⟩

namespace Render

/-! ## Actions that do not look at the count -/

theorem blind_guarded {body leave : Action ω ε Unit} (hb : Blind body) (hl : Blind leave) :
    Blind (Direct.guarded body leave) := by
  intro pass inclusions
  simp only [Direct.guarded_eq, hb pass inclusions]
  cases hr : body pass with
  | ok answer after =>
    simp only [withState, stateOf, hl after inclusions]
    cases leave after <;> rfl
  | error error after =>
    simp only [withState, stateOf, hl after inclusions]
    cases leave after <;> rfl

/-! ## Actions that keep the levels -/

/-- However the action ends, it ends at the level that it began at. -/
def KeepsLevels {α : Type} (level : Nat → ω → Prop) (action : Action ω ε α) : Prop :=
  ∀ n pass, level n pass.world → level n (stateOf (action pass)).world

section Levels

variable {host : Host ω ε ν} {level : Nat → ω → Prop}

theorem keepsLevels_ofHost (hl : host.Levels level) {α : Type} {action : Action ω ε α}
    (h : OfHost host action) : KeepsLevels level action :=
  fun n _ hn => h.preserves (hl.preserves n) hn

theorem keepsLevels_bind {α β : Type} {first : Action ω ε α} {next : α → Action ω ε β}
    (hf : KeepsLevels level first) (hn : ∀ answer, KeepsLevels level (next answer)) :
    KeepsLevels level (first >>= next) := by
  intro n pass h
  have hfirst := hf n pass h
  simp only [bind, EStateM.bind]
  cases hr : first pass with
  | ok answer after =>
    rw [hr] at hfirst
    exact hn answer n after hfirst
  | error error after =>
    rw [hr] at hfirst
    exact hfirst

theorem enter_scope_eq {scopes : Scopes ω ε ν} (hs : host.context.scopes = some scopes)
    (value : Value ν) : enter host (.scope value) = lift (scopes.push value) := by
  simp only [enter, hs]

theorem leave_scope_eq {scopes : Scopes ω ε ν} (hs : host.context.scopes = some scopes)
    (value : Value ν) :
    leave host (.scope value) = (lift scopes.pop >>= fun _ => pure () : Action ω ε Unit) := by
  simp only [leave, hs]

theorem inScope_eq {scopes : Scopes ω ε ν} (hs : host.context.scopes = some scopes)
    (value : Value ν) (body : Action ω ε Unit) :
    Direct.inScope scopes value body =
      enter host (.scope value) >>= fun _ => Direct.guarded body (leave host (.scope value)) := by
  rw [enter_scope_eq hs, leave_scope_eq hs, Direct.inScope, Direct.ask_eq_lift, Direct.ask_eq_lift]

theorem guarded_of_ok {body leave : Action ω ε Unit} {pass left : Pass ω}
    (h : leave (stateOf (body pass)) = .ok () left) :
    Direct.guarded body leave pass = withState left (body pass) := by
  simp only [Direct.guarded_eq, h]

/-- What rendering a body in a scope comes to: the scope is entered or refused, and if it is entered it
is left again. -/
theorem inScope_cases (hl : host.Levels level) {scopes : Scopes ω ε ν}
    (hs : host.context.scopes = some scopes) {body : Action ω ε Unit}
    (hb : KeepsLevels level body) (value : Value ν) {n : Nat} {pass : Pass ω}
    (hn : level n pass.world) :
    (∃ error after, enter host (.scope value) pass = .error error after ∧
      Direct.inScope scopes value body pass = .error error after ∧ level n after.world) ∨
    ∃ entered left, enter host (.scope value) pass = .ok () entered ∧
      leave host (.scope value) (stateOf (body entered)) = .ok () left ∧
      Direct.inScope scopes value body pass = withState left (body entered) ∧
      level (n + 1) entered.world ∧ level n left.world := by
  rw [inScope_eq hs]
  simp only [bind, EStateM.bind]
  rw [enter_scope_eq hs]
  cases hp : scopes.push value pass.world with
  | error error world =>
    have he := lift_of_error hp
    rw [he]
    exact .inl ⟨_, _, rfl, rfl, hl.refuse hs value hn hp⟩
  | ok u world =>
    have he := lift_of_ok hp
    have hentered : level (n + 1) ({ pass with world := world } : Pass ω).world :=
      hl.push hs value hn hp
    generalize ({ pass with world := world } : Pass ω) = entered at he hentered
    -- entering raised the level and the body keeps it, so there is a scope to leave
    obtain ⟨popped, left, hpop, hleft⟩ := hl.pop hs (hb (n + 1) entered hentered)
    have hleave : leave host (.scope value) (stateOf (body entered)) =
        .ok () { stateOf (body entered) with world := left } := by
      rw [leave_scope_eq hs]
      simp only [bind, EStateM.bind, lift_of_ok hpop]
      rfl
    rw [he]
    exact .inr ⟨_, _, rfl, hleave, guarded_of_ok hleave, hentered, hleft⟩

theorem keepsLevels_inScope (hl : host.Levels level) {scopes : Scopes ω ε ν}
    (hs : host.context.scopes = some scopes) {body : Action ω ε Unit}
    (hb : KeepsLevels level body) (value : Value ν) :
    KeepsLevels level (Direct.inScope scopes value body) := by
  intro n pass hn
  rcases inScope_cases hl hs hb value hn with ⟨_, _, _, heq, hlevel⟩ | ⟨_, left, _, _, heq, _, hlevel⟩
  · rw [heq]
    exact hlevel
  · rw [heq]
    cases body _ <;> exact hlevel

theorem keepsLevels_inScopes (hl : host.Levels level) {scopes : Scopes ω ε ν}
    (hs : host.context.scopes = some scopes) {body : Action ω ε Unit}
    (hb : KeepsLevels level body) (values : List (Value ν)) :
    KeepsLevels level (Direct.inScopes scopes body values) := by
  induction values with
  | nil => exact fun _ _ h => h
  | cons value rest ih => exact keepsLevels_bind (keepsLevels_inScope hl hs hb value) fun _ => ih

end Levels

theorem blind_inScope (scopes : Scopes ω ε ν) (value : Value ν) {body : Action ω ε Unit}
    (hb : Blind body) : Blind (Direct.inScope scopes value body) := by
  simp only [Direct.inScope, Direct.ask_eq_lift]
  exact blind_bind (blind_lift _) fun _ =>
    blind_guarded hb (blind_bind (blind_lift _) fun _ _ _ => rfl)

theorem blind_inScopes (scopes : Scopes ω ε ν) {body : Action ω ε Unit} (hb : Blind body)
    (values : List (Value ν)) : Blind (Direct.inScopes scopes body values) := by
  induction values with
  | nil => exact fun _ _ => rfl
  | cons value rest ih => exact blind_bind (blind_inScope scopes value hb) fun _ => ih

end Render

end Stencil

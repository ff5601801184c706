import Stencil.Proofs.Render.Frames
import Stencil.Proofs.Render.Levels
import Stencil.Proofs.Walk.Steps

/-!
# What is known of the world while scopes are open

A level counts the scopes that can be left, and a seat says what the values on the stack are. Both are
statements about the world that depend on which scopes are open: entering a scope makes such a statement
true for one scope more, leaving one makes it true for one scope less, and nothing else that a rendering
does touches it (`Host.Stacks`). In particular a scope that was entered can be left.

So the renderer keeps every such statement, for the scopes among the hooks that have been entered
(`Host.Stacks.maintains`). When a rendering is over, the statement holds again for no scopes, which is
how a context is shown to be left as it was found.
-/

set_option autoImplicit false

namespace Stencil

open Walk Render

variable {ω ε ν : Type}

/-- What holds of the world with certain values pushed, innermost first. -/
structure Host.Stacks (host : Host ω ε ν) (holds : List (Value ν) → ω → Prop) : Prop where
  preserves : ∀ pushed, host.Preserves (holds pushed)
  push : ∀ {scopes}, host.context.scopes = some scopes → ∀ {pushed world} value, holds pushed world →
    ∀ {entered}, scopes.push value world = .ok () entered → holds (value :: pushed) entered
  refuse : ∀ {scopes}, host.context.scopes = some scopes → ∀ {pushed world} value,
    holds pushed world →
    ∀ {error after}, scopes.push value world = .error error after → holds pushed after
  pop : ∀ {scopes}, host.context.scopes = some scopes → ∀ {value pushed world},
    holds (value :: pushed) world → ∃ popped left, scopes.pop world = .ok popped left ∧ holds pushed left

section Kinds

variable {host : Host ω ε ν} {level : Nat → ω → Prop}

/-- A level depends on how many values are pushed. -/
theorem Host.Levels.stacks (h : host.Levels level) :
    host.Stacks fun pushed => level pushed.length where
  preserves pushed := h.preserves pushed.length
  push hs := fun value hw _ he => h.push hs value hw he
  refuse hs := fun value hw _ _ he => h.refuse hs value hw he
  pop hs := fun hw => h.pop hs hw

/-- What depends on no more than how many values are pushed is a level. -/
theorem Host.Stacks.levels (h : host.Stacks fun pushed => level pushed.length) :
    host.Levels level := by
  -- any values will do, as long as there are so many of them
  let values (n : Nat) : List (Value ν) := List.replicate n (.text "")
  have hlength (n : Nat) : (values n).length = n := List.length_replicate
  constructor
  · intro n
    rw [← hlength n]
    exact h.preserves (values n)
  · intro scopes hs n world value hw entered he
    rw [← hlength n] at hw ⊢
    exact h.push hs value hw he
  · intro scopes hs n world value hw error after he
    rw [← hlength n] at hw ⊢
    exact h.refuse hs value hw he
  · intro scopes hs n world hw
    rw [← hlength n] at hw ⊢
    exact h.pop hs (show level (Value.text "" :: values n).length world from hw)

theorem Host.Leavable.stacks (h : host.Leavable) :
    ∃ holds : List (Value ν) → ω → Prop, host.Stacks holds ∧ ∀ world, holds [] world := by
  obtain ⟨level, hl, hw⟩ := h.levels
  exact ⟨_, hl.stacks, hw⟩

/-- A stack of values holds what has been pushed above what it held before. -/
theorem Host.Seat.stacks {graph : Graph ν} (seat : host.Seat graph) (initial : ContextStack ν) :
    host.Stacks fun pushed world =>
      seat.get world = { initial with pushed := pushed ++ initial.pushed } where
  preserves pushed := seat.preserves fun stack =>
    stack = { initial with pushed := pushed ++ initial.pushed }
  push hs pushed world value hw entered he := by
    rw [seat.push_eq hs] at he
    cases he
    rw [seat.get_set, hw]
    rfl
  refuse hs pushed world value hw error after he := by
    rw [seat.push_eq hs] at he
    cases he
  pop hs value pushed world hw := by
    have hp : (seat.get world).pushed = value :: (pushed ++ initial.pushed) := by
      rw [hw]
      rfl
    refine ⟨value, _, seat.pop_eq hs hp, ?_⟩
    rw [seat.get_set, hw]

end Kinds

/-- The values that are pushed while these hooks are entered. A context without scopes has none. -/
def Host.pushedBy (host : Host ω ε ν) (hooks : List (Hook ν)) : List (Value ν) :=
  if host.isScoped then scopesOf hooks else []

theorem Host.pushedBy_nil (host : Host ω ε ν) : host.pushedBy [] = [] := by
  simp [pushedBy, scopesOf]

/-- The renderer keeps what holds of the world, for the scopes that are open. -/
theorem Host.Stacks.maintains {host : Host ω ε ν} {holds : List (Value ν) → ω → Prop}
    (h : host.Stacks holds) (options : RenderOptions) (graph : Graph ν) :
    (visitor options host graph).Maintains fun hooks pass =>
      holds (host.pushedBy hooks) pass.world where
  visit {hooks pass} node depth hw := by
    obtain ⟨action, ha, heq⟩ := exists_ofHost_visit options host graph node depth pass
    show holds _ (stateOf (visit options host graph node depth pass)).world
    rw [heq]
    exact ha.preserves (h.preserves _) hw
  enter {hooks pass entered} hook hw he := by
    cases hook with
    | inclusion =>
      cases he
      exact hw
    | scope value =>
      cases hs : host.context.scopes with
      | none =>
        simp only [visitor, enter, hs] at he
        cases he
        simpa [pushedBy, Host.isScoped, hs] using hw
      | some scopes =>
        simp only [visitor, enter_scope_eq hs] at he
        have hentered := h.push hs value hw (of_lift_ok he)
        simpa [pushedBy, Host.isScoped, hs, scopesOf] using hentered
  -- a scope that is refused has not been pushed, so the world is still held for the hooks that are open
  refuse {hooks pass after error} hook hw he := by
    cases hook with
    | inclusion => cases he
    | scope value =>
      cases hs : host.context.scopes with
      | none =>
        simp only [visitor, enter, hs] at he
        cases he
      | some scopes =>
        simp only [visitor, enter_scope_eq hs] at he
        obtain ⟨_, _, hp⟩ := of_lift_error he
        exact h.refuse hs value hw hp
  leave {hooks pass} hook hw := by
    cases hook with
    | inclusion => exact ⟨{ pass with inclusions := pass.inclusions - 1 }, rfl, hw⟩
    | scope value =>
      cases hs : host.context.scopes with
      | none =>
        refine ⟨pass, ?_, ?_⟩
        · simp only [visitor, leave, hs]
          rfl
        · simpa [pushedBy, Host.isScoped, hs] using hw
      | some scopes =>
        have hopen : holds (value :: host.pushedBy hooks) pass.world := by
          simpa [pushedBy, Host.isScoped, hs, scopesOf] using hw
        obtain ⟨popped, left, hpop, hleft⟩ := h.pop hs hopen
        refine ⟨{ pass with world := left }, ?_, hleft⟩
        simp only [visitor, leave_scope_eq hs, bind, EStateM.bind, lift_of_ok hpop]
        rfl

/-! ## Renderings -/

section Renderings

variable {host : Host ω ε ν} {holds : List (Value ν) → ω → Prop} {renderer : Renderer}
  {graph : Graph ν} {document : Document} {world : ω}

theorem Host.holds_start (host : Host ω ε ν) (renderer : Renderer) (document : Document)
    (hw : holds [] world) :
    holds (host.pushedBy (hooksOf (renderer.start document world : Machine (Pass ω) (Hook ν)).frames))
      (renderer.start document world : Machine (Pass ω) (Hook ν)).state.world := by
  show holds (host.pushedBy []) world
  rw [host.pushedBy_nil]
  exact hw

/-- A rendering leaves no scope open. -/
theorem Host.Stacks.render (h : host.Stacks holds) (hw : holds [] world) :
    holds [] (renderer.render host graph document world).world := by
  have hend := (h.maintains renderer.options graph).run
    (host.holds_start renderer document hw) (halts renderer.options host graph document.nodes _)
  rw [host.pushedBy_nil] at hend
  exact hend

/-- As scopes can be left, a rendering fails with the error of the first visit that fails. -/
theorem Host.Stacks.result_of_visit (h : host.Stacks holds) (hw : holds [] world)
    {machine : Machine (Pass ω) (Hook ν)}
    (hr : (visitor renderer.options host graph).Reaches (renderer.start document world) machine)
    {node : Node} {depth : Int} {error : RenderError ε} {after : Pass ω}
    (hat : machine.IsAt node depth)
    (hv : visit renderer.options host graph node depth machine.state = .error error after) :
    (renderer.render host graph document world).result = .error error :=
  Renderer.result_eq_error_iff.2 <|
    (h.maintains renderer.options graph).verdict_of_visit
      (host.holds_start renderer document hw) hr hat hv _

end Renderings

end Stencil

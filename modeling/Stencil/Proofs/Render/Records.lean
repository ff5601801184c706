import Stencil.Proofs.Render.Chunks
import Stencil.Proofs.Render.Failing
import Stencil.Proofs.Walk.Parting

/-!
# The record of a rendering in progress

The calls of a host are put on record as they are made, and nothing is taken back. So the record at any
time is at the beginning of what it will be (`prefix_render`). And when a visit fails, only scopes are
left after that: what has been written, what has been loaded and what is cached stays as the visit left
it (`after_visit_error`).

The second fact is needed also for hosts that are no longer the recorded ones, because their sink has
been replaced. It asks for no more than the context that a recorded host has.
-/

set_option autoImplicit false

namespace Stencil

open Walk

variable {ω ε ν : Type}

theorem recorded_grows (host : Host ω ε ν) (before : List (Call ν)) :
    host.recorded.Preserves fun whole => before <+: whole.2 where
  lookup name whole h := by
    show before <+: (stateOf (recording (.lookup name) _ whole)).2
    rw [calls_stateOf_recording]
    exact h.trans (List.prefix_append _ _)
  write text whole h := by
    show before <+: (stateOf (recording (.write text) _ whole)).2
    rw [calls_stateOf_recording]
    exact h.trans (List.prefix_append _ _)
  load name whole h := by
    show before <+: (stateOf (recording (.load name) _ whole)).2
    rw [calls_stateOf_recording]
    exact h.trans (List.prefix_append _ _)
  note notice whole h := h.trans (List.prefix_append _ _)

namespace Render

variable (options : RenderOptions) (host : Host ω ε ν) (graph : Graph ν)

/-! ## The record grows -/

/-- Every deed of the recorded visitor leaves the record at the beginning of what it makes of it. -/
theorem keeps_recorded (before : List (Call ν)) :
    (visitor options host.recorded graph).Keeps fun _ pass => before <+: pass.world.2 := by
  apply Visitor.keeps_of_preserved
  · intro node depth pass h
    obtain ⟨action, ha, heq⟩ := exists_ofHost_visit options host.recorded graph node depth pass
    show before <+: (stateOf (visit options host.recorded graph node depth pass)).world.2
    rw [heq]
    exact ha.preserves (recorded_grows host before) h
  · intro hook pass h
    show before <+: (stateOf (enter host.recorded hook pass)).world.2
    rcases calls_enter host hook pass with hcalls | ⟨value, hcalls⟩
    · rw [hcalls]
      exact h
    · rw [hcalls]
      exact h.trans (List.prefix_append _ _)
  · intro hook pass h
    show before <+: (stateOf (leave host.recorded hook pass)).world.2
    rcases calls_leave host hook pass with hcalls | hcalls
    · rw [hcalls]
      exact h
    · rw [hcalls]
      exact h.trans (List.prefix_append _ _)

/-! ## Hooks neither write nor load -/

theorem chunks_enter (hook : Hook ν) (pass : Pass (ω × List (Call ν))) :
    chunks (stateOf (enter host.recorded hook pass)).world.2 = chunks pass.world.2 := by
  rcases calls_enter host hook pass with hcalls | ⟨value, hcalls⟩
  · rw [hcalls]
  · rw [hcalls, chunks_add _ rfl]

theorem chunks_leave (hook : Hook ν) (pass : Pass (ω × List (Call ν))) :
    chunks (stateOf (leave host.recorded hook pass)).world.2 = chunks pass.world.2 := by
  rcases calls_leave host hook pass with hcalls | hcalls
  · rw [hcalls]
  · rw [hcalls, chunks_add _ rfl]

theorem loads_leave (hook : Hook ν) (pass : Pass (ω × List (Call ν))) :
    loads (stateOf (leave host.recorded hook pass)).world.2 = loads pass.world.2 := by
  rcases calls_leave host hook pass with hcalls | hcalls
  · rw [hcalls]
  · rw [hcalls, loads_add _ rfl]

/-- Hooks concern the context alone. -/
theorem enter_eq_of_context {other : Host ω ε ν} (hc : other.context = host.context) :
    enter other = enter host := by
  funext hook
  cases hook with
  | inclusion => rfl
  | scope value => simp only [enter, hc]

theorem leave_eq_of_context {other : Host ω ε ν} (hc : other.context = host.context) :
    leave other = leave host := by
  funext hook
  cases hook with
  | inclusion => rfl
  | scope value => simp only [leave, hc]

end Render

namespace Renderer

open Render

variable {renderer : Renderer} {host : Host ω ε ν} {graph : Graph ν} {document : Document}
  {whole : ω × List (Call ν)} {machine : Machine (Pass (ω × List (Call ν))) (Hook ν)}

/-- What is on the record when the walk comes to a machine is the beginning of the final record. -/
theorem prefix_render
    (hr : (visitor renderer.options host.recorded graph).Reaches (renderer.start document whole)
      machine) :
    machine.state.world.2 <+: (renderer.render host.recorded graph document whole).world.2 :=
  (keeps_recorded renderer.options host graph machine.state.world.2).run_of_reaches hr
    (List.prefix_refl _)
    (halts renderer.options host.recorded graph document.nodes ⟨renderer.cache, 0, whole⟩)

/-- So is what is on it after a visit that the walk comes to. -/
theorem prefix_render_of_visit
    (hr : (visitor renderer.options host.recorded graph).Reaches (renderer.start document whole)
      machine) {node : Node} {depth : Int} (hat : machine.IsAt node depth) :
    (stateOf (visit renderer.options host.recorded graph node depth machine.state)).world.2 <+:
      (renderer.render host.recorded graph document whole).world.2 :=
  (keeps_recorded renderer.options host graph _).run_of_visit hr hat (List.prefix_refl _)
    (halts renderer.options host.recorded graph document.nodes ⟨renderer.cache, 0, whole⟩)

/-- What a rendering has done when a visit fails is all that it does, scopes apart. -/
theorem after_visit_error (host : Host ω ε ν) {sinking : Host (ω × List (Call ν)) ε ν}
    (hc : sinking.context = host.recorded.context)
    (hr : (visitor renderer.options sinking graph).Reaches (renderer.start document whole) machine)
    {node : Node} {depth : Int} {error : RenderError ε} {after : Pass (ω × List (Call ν))}
    (hat : machine.IsAt node depth)
    (hv : visit renderer.options sinking graph node depth machine.state = .error error after) :
    let rendering := renderer.render sinking graph document whole
    chunks rendering.world.2 = chunks after.world.2 ∧ loads rendering.world.2 = loads after.world.2 ∧
      rendering.renderer.cache = after.cache := by
  have halts := halts renderer.options sinking graph document.nodes ⟨renderer.cache, 0, whole⟩
  refine Visitor.state_of_visit_error (fun pass => chunks pass.world.2 = chunks after.world.2 ∧
    loads pass.world.2 = loads after.world.2 ∧ pass.cache = after.cache) hr hat hv ⟨rfl, rfl, rfl⟩ ?_
    halts
  -- after the error hooks are left, which writes nothing, loads nothing and does not touch the cache
  have hleave : (visitor renderer.options sinking graph).leave = leave host.recorded :=
    leave_eq_of_context host.recorded hc
  intro hook pass h
  rw [hleave, chunks_leave, loads_leave, cache_leave]
  exact h

end Renderer

end Stencil

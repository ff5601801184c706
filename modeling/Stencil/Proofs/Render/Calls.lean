import Mathlib
import Stencil.Proofs.Render.Recursion
import Stencil.Proofs.Render.Stacks

/-!
# A rendering and its recursion make the same calls

`Renderer.renderDirectly` renders a document by recursion. That it is what `Renderer.render` does is
said twice here. First for a host as it is: the result, the cache and the world come out the same,
whatever the host does when it is called. Then for the host with a record of every call that is made of
it, in order (`Host.recorded`): the record comes out the same too.

The one assumption is that a scope that was entered can be left (`Host.Leavable`). It is needed, since
a walk whose unwinding fails gives up on the scopes further out.
-/

set_option autoImplicit false

namespace Stencil

open Walk

variable {ω ε ν : Type}

/-- A call of a host. -/
inductive Call (ν : Type)
  | lookup (name : String)
  | push (value : Value ν)
  | pop
  | write (text : String)
  | load (name : String)
  | note (notice : Notice)

/-- An action that also puts a call on record, whether or not it fails. -/
def recording {α : Type} (call : Call ν) (action : EStateM ε ω α) :
    EStateM ε (ω × List (Call ν)) α := fun whole =>
  match action whole.1 with
  | .ok answer world => .ok answer (world, whole.2 ++ [call])
  | .error error world => .error error (world, whole.2 ++ [call])

/-- The same host with all calls of it on record. -/
def Host.recorded (host : Host ω ε ν) : Host (ω × List (Call ν)) ε ν where
  context :=
    { lookup := fun name => recording (.lookup name) (host.context.lookup name)
      scopes := host.context.scopes.map fun scopes =>
        { push := fun value => recording (.push value) (scopes.push value)
          pop := recording .pop scopes.pop } }
  write text := recording (.write text) (host.write text)
  load name := recording (.load name) (host.load name)
  note notice whole := (host.note notice whole.1, whole.2 ++ [.note notice])

theorem world_stateOf_recording {α : Type} (call : Call ν) (action : EStateM ε ω α)
    (whole : ω × List (Call ν)) :
    (stateOf (recording call action whole)).1 = stateOf (action whole.1) := by
  simp only [recording]
  cases action whole.1 <;> rfl

/-- What holds of the world does not depend on the record. -/
theorem Host.Stacks.recorded {host : Host ω ε ν} {holds : List (Value ν) → ω → Prop}
    (h : host.Stacks holds) :
    host.recorded.Stacks fun pushed (whole : ω × List (Call ν)) => holds pushed whole.1 where
  preserves pushed := {
    lookup := fun name whole hw =>
      (world_stateOf_recording _ _ whole).symm ▸ (h.preserves pushed).lookup name hw
    write := fun text whole hw =>
      (world_stateOf_recording _ _ whole).symm ▸ (h.preserves pushed).write text hw
    load := fun name whole hw =>
      (world_stateOf_recording _ _ whole).symm ▸ (h.preserves pushed).load name hw
    note := fun notice _ hw => (h.preserves pushed).note notice hw }
  -- the scopes of the recording host are those of the host with a record, so a push is one of the
  -- host's
  push hs pushed whole value hw entered he := by
    obtain ⟨scopes, hscopes, rfl⟩ := Option.map_eq_some_iff.1 hs
    cases hp : scopes.push value whole.1 with
    | ok u world =>
      simp only [recording, hp] at he
      cases he
      exact h.push hscopes value hw hp
    | error error world => simp [recording, hp] at he
  refuse hs pushed whole value hw error after he := by
    obtain ⟨scopes, hscopes, rfl⟩ := Option.map_eq_some_iff.1 hs
    cases hp : scopes.push value whole.1 with
    | ok u world => simp [recording, hp] at he
    | error error world =>
      simp only [recording, hp] at he
      cases he
      exact h.refuse hscopes value hw hp
  pop hs value pushed whole hw := by
    obtain ⟨scopes, hscopes, rfl⟩ := Option.map_eq_some_iff.1 hs
    obtain ⟨popped, left, hp, hleft⟩ := h.pop hscopes hw
    exact ⟨popped, (left, whole.2 ++ [.pop]), by simp only [recording, hp], hleft⟩

theorem Host.Levels.recorded {host : Host ω ε ν} {level : Nat → ω → Prop} (h : host.Levels level) :
    host.recorded.Levels fun n (whole : ω × List (Call ν)) => level n whole.1 :=
  h.stacks.recorded.levels

namespace Renderer

/-- Renders a document in a world, by recursion. -/
def renderDirectly (renderer : Renderer) (host : Host ω ε ν) (graph : Graph ν)
    (document : Document) (world : ω) : Rendering ω ε :=
  let rendered := Render.Direct.renderAll renderer.options host graph 0 document.nodes
    ⟨renderer.cache, 0, world⟩
  { result :=
      match rendered with
      | .ok _ _ => .ok ()
      | .error error _ => .error error
    renderer := { renderer with cache := (stateOf rendered).cache }
    world := (stateOf rendered).world }

theorem render_eq_of_levels (renderer : Renderer) {host : Host ω ε ν} {level : Nat → ω → Prop}
    (hl : host.Levels level) (graph : Graph ν) (document : Document) {world : ω}
    (hw : level 0 world) :
    renderer.render host graph document world =
      renderer.renderDirectly host graph document world := by
  have hm : Render.Mirrors renderer.options host graph level 0 document.nodes _ :=
    Render.mirrors_renderAll hl 0 document.nodes
  have hstart : level 0 (⟨renderer.cache, 0, world⟩ : Render.Pass ω).world := hw
  rw [render_eq_of_ends (hm.yields 0 rfl hstart).ends, renderDirectly]
  cases Render.Direct.renderAll renderer.options host graph 0 document.nodes
    ⟨renderer.cache, 0, world⟩ <;> rfl

/-- **Rendering is what the recursion says.** Whatever the document, the context, the loader, the sink,
the options and the partials known before, the walk makes the calls that the recursion makes, in the
same order, and ends as it does. -/
theorem render_eq_renderDirectly (renderer : Renderer) (host : Host ω ε ν) (h : host.Leavable)
    (graph : Graph ν) (document : Document) (world : ω) :
    renderer.render host graph document world =
        renderer.renderDirectly host graph document world ∧
      ∀ calls, renderer.render host.recorded graph document (world, calls) =
        renderer.renderDirectly host.recorded graph document (world, calls) := by
  obtain ⟨level, hl, hw⟩ := h.levels
  refine ⟨?_, fun calls => ?_⟩
  · exact renderer.render_eq_of_levels hl graph document (hw world)
  · exact renderer.render_eq_of_levels hl.recorded graph document (hw world)

/-! ## A variable, a section and partials in it -/

def layeredGraph : Graph Unit := fun _ => .mapping [(.text "v", .scalar (.text ">"))]

/-- A partial that writes the name as it stands, and one that includes it. -/
abbrev layeredHost : Host (Stage (ContextStack Unit)) ContextError Unit :=
  Stage.host (.ofStack layeredGraph) (.ofList [("p", "{{&v}}"), ("q", "{{>p}}")])

/-- A mapping with another in it, and a text for the same name in either. -/
def layeredStage : Stage (ContextStack Unit) :=
  { context :=
      ⟨.object (.mapping [(.text "v", .scalar (.text "<")), (.text "a", .container ())]), []⟩ }

/-- The name outside of the section, and the first partial twice in it before the second. -/
def layeredDocument : Document :=
  ⟨[⟨.tag ⟨"v", .escaped, 0⟩, []⟩,
    ⟨.tag ⟨"a", .sectionBegin, 5⟩,
      [⟨.tag ⟨"p", .inclusion, 11⟩, []⟩, ⟨.tag ⟨"p", .inclusion, 17⟩, []⟩,
        ⟨.tag ⟨"q", .inclusion, 23⟩, []⟩]⟩], ""⟩

/-- Partials are not included in partials. -/
def layeredRenderer : Renderer := { options := { inclusionLimit := 1 } }

/-- What is called. The second time the first partial is known. -/
def layeredCalls : List (Call Unit) :=
  [.lookup "v", .write "&lt;", .lookup "a",
    .push (.object (.mapping [(.text "v", .scalar (.text ">"))])),
    .load "p", .note (.read 6 1), .note (.partialRead "p"), .lookup "v", .write ">",
    .lookup "v", .write ">",
    .load "q", .note (.read 6 1), .note (.partialRead "q"), .pop]

/-- The name is found outside of the section and is escaped, and it is found in its scope by the partial.
The rendering fails in the second partial, where the first is nested too deep, and the scope is left. -/
theorem renderDirectly_sample :
    (layeredRenderer.renderDirectly layeredHost layeredGraph layeredDocument layeredStage).result =
        .error (.tooDeep "p" 1) ∧
      (layeredRenderer.renderDirectly layeredHost.recorded layeredGraph layeredDocument
        (layeredStage, [])).world.2 = layeredCalls := by
  have hwalk : ((Render.visitor layeredRenderer.options layeredHost layeredGraph).runFor 40
      (layeredRenderer.start layeredDocument layeredStage)).map (fun outcome =>
        outcome.verdict.map fun _ => ()) = some (.error (.tooDeep "p" 1)) := by
    cbv
  have hcalls : ((Render.visitor layeredRenderer.options layeredHost.recorded layeredGraph).runFor 40
      (layeredRenderer.start layeredDocument (layeredStage, []))).map (fun outcome =>
        outcome.state.world.2) = some layeredCalls := by
    cbv
  obtain ⟨outcome, hends, hverdict⟩ := Option.map_eq_some_iff.1 hwalk
  obtain ⟨recorded, hrecorded, hworld⟩ := Option.map_eq_some_iff.1 hcalls
  -- what the walk comes to can be computed, and the recursion comes to the same
  have h := layeredRenderer.render_eq_renderDirectly layeredHost
    (.stacked (Stage.seat layeredGraph _)) layeredGraph layeredDocument layeredStage
  rw [← h.1, ← h.2 [], render_eq_of_ends ⟨40, hends⟩, render_eq_of_ends ⟨40, hrecorded⟩]
  exact ⟨hverdict, hworld⟩

end Renderer

end Stencil

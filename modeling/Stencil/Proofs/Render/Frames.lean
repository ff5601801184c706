import Stencil.Proofs.Render.Seat

/-!
# The values on the stack are the scopes that are open

While a document is rendered over a stack of values, three things have to keep step that are changed
in different places: the frames of the walk, the values on the stack, and the number of inclusions in
progress. The hooks that have been entered and not yet left tie them together. Their scopes, in order,
are what has been pushed, and their inclusions are what has been counted (`Tracks`).

Every visit, every hook entered and every hook left keeps this (`tracks_maintained`), an error being no
exception, so it holds whenever a node is visited. And since a rendering ends with all hooks left, it
ends with the stack that it began with.
-/

set_option autoImplicit false

namespace Stencil.Render

open Walk

variable {ω ε ν : Type}

/-- The values of the scopes among some hooks. -/
def scopesOf : List (Hook ν) → List (Value ν)
  | [] => []
  | .scope value :: hooks => value :: scopesOf hooks
  | .inclusion :: hooks => scopesOf hooks

def inclusionsOf : List (Hook ν) → Nat
  | [] => 0
  | .scope _ :: hooks => inclusionsOf hooks
  | .inclusion :: hooks => inclusionsOf hooks + 1

/-- The stack holds the open scopes above what it held at first, and the inclusions in progress are
counted. -/
structure Tracks {host : Host ω ε ν} {graph : Graph ν} (seat : host.Seat graph)
    (initial : ContextStack ν) (hooks : List (Hook ν)) (pass : Pass ω) : Prop where
  stack : seat.get pass.world = { initial with pushed := scopesOf hooks ++ initial.pushed }
  inclusions : pass.inclusions = inclusionsOf hooks

variable {host : Host ω ε ν} {graph : Graph ν} (options : RenderOptions)

def restack (seat : host.Seat graph) (stack : ContextStack ν) (pass : Pass ω) : Pass ω :=
  { pass with world := seat.set stack pass.world }

theorem tracks_visit (seat : host.Seat graph) {initial : ContextStack ν} {hooks : List (Hook ν)}
    {pass : Pass ω} (node : Node) (depth : Int) (h : Tracks seat initial hooks pass) :
    Tracks seat initial hooks (stateOf (visit options host graph node depth pass)) := by
  obtain ⟨action, ha, heq⟩ := exists_ofHost_visit options host graph node depth pass
  rw [heq]
  refine ⟨?_, ?_⟩
  · exact ha.preserves (seat.preserves fun stack =>
      stack = { initial with pushed := scopesOf hooks ++ initial.pushed }) h.stack
  · rw [ha.blind.inclusions]
    exact h.inclusions

theorem tracks_enter_scope (seat : host.Seat graph) {initial : ContextStack ν}
    {hooks : List (Hook ν)} {pass : Pass ω} (value : Value ν) (h : Tracks seat initial hooks pass) :
    ∃ entered, enter host (.scope value) pass = .ok () entered ∧
      Tracks seat initial (.scope value :: hooks) entered := by
  obtain ⟨scopes, hs⟩ : ∃ scopes, host.context.scopes = some scopes := ⟨_, seat.scopes_eq⟩
  refine ⟨restack seat ((seat.get pass.world).push value) pass, ?_, ?_, ?_⟩
  · simp only [enter, hs, lift, zoom, seat.push_eq hs, restack]
  · rw [restack, seat.get_set, h.stack]
    rfl
  · exact h.inclusions

theorem tracks_leave_scope (seat : host.Seat graph) {initial : ContextStack ν}
    {hooks : List (Hook ν)} {pass : Pass ω} {value : Value ν}
    (h : Tracks seat initial (.scope value :: hooks) pass) :
    ∃ left, leave host (.scope value) pass = .ok () left ∧ Tracks seat initial hooks left := by
  obtain ⟨scopes, hs⟩ : ∃ scopes, host.context.scopes = some scopes := ⟨_, seat.scopes_eq⟩
  have hp : (seat.get pass.world).pushed = value :: (scopesOf hooks ++ initial.pushed) := by
    rw [h.stack]
    rfl
  refine ⟨restack seat { initial with pushed := scopesOf hooks ++ initial.pushed } pass, ?_, ?_, ?_⟩
  · simp only [leave, hs, bind, EStateM.bind, lift, zoom, seat.pop_eq hs hp, h.stack]
    rfl
  · exact seat.get_set _ _
  · exact h.inclusions

/-- Everything that the renderer does on a walk keeps the stack, the count and the open hooks in
step. -/
theorem tracks_maintained (seat : host.Seat graph) (initial : ContextStack ν) :
    (visitor options host graph).Maintains (Tracks seat initial) where
  visit node depth h := tracks_visit options seat node depth h
  enter {hooks pass entered} hook h he := by
    cases hook with
    | scope value =>
      obtain ⟨after, ha, ht⟩ := tracks_enter_scope seat value h
      have : entered = after := by simpa [visitor, ha] using he.symm
      exact this ▸ ht
    | inclusion =>
      cases he
      exact ⟨h.stack, by rw [inclusionsOf, ← h.inclusions]⟩
  refuse {hooks pass after error} hook h he := by
    cases hook with
    | scope value =>
      obtain ⟨entered, hok, _⟩ := tracks_enter_scope seat value h
      simp [visitor, hok] at he
    | inclusion => cases he
  leave {hooks pass} hook h := by
    cases hook with
    | scope value => exact tracks_leave_scope seat h
    | inclusion =>
      refine ⟨{ pass with inclusions := pass.inclusions - 1 }, rfl, h.stack, ?_⟩
      rw [h.inclusions]
      rfl

/-- **A rendering leaves the stack of values as it found it, and uses it as a stack of scopes.**
However the rendering ends, its frames are those from before. And at every machine that it comes
through, so whenever a node is visited, the frames above those are the values of the scopes that are
open, innermost first, and the inclusions counted are those in progress. -/
theorem frames_render (renderer : Renderer) (seat : host.Seat graph) (document : Document)
    (world : ω) :
    (seat.get (renderer.render host graph document world).world).frames =
        (seat.get world).frames ∧
      ∀ machine, (visitor renderer.options host graph).Reaches (renderer.start document world)
          machine →
        (seat.get machine.state.world).frames =
            scopesOf (hooksOf machine.frames) ++ (seat.get world).frames ∧
          machine.state.inclusions = inclusionsOf (hooksOf machine.frames) := by
  have hm := tracks_maintained renderer.options seat (seat.get world)
  have start : Tracks seat (seat.get world)
      (hooksOf (renderer.start document world : Machine (Pass ω) (Hook ν)).frames)
      (⟨renderer.cache, 0, world⟩ : Pass ω) := ⟨rfl, rfl⟩
  refine ⟨?_, fun machine hr => ?_⟩
  -- in the end no hook is open, so nothing is left above the frames from before
  · have hend := hm.run start (halts renderer.options host graph document.nodes _)
    exact congrArg ContextStack.frames hend.stack
  · have ht := hm.of_reaches start hr
    refine ⟨?_, ht.inclusions⟩
    rw [ht.stack]
    simp only [ContextStack.frames, List.append_assoc]

/-! ## A rendering that fails inside a section -/

/-- A section in which a text comes before a partial. -/
def sampleDocument : Document :=
  ⟨[⟨.tag ⟨"a", .sectionBegin, 0⟩,
    [⟨.text "x" 6, []⟩, ⟨.tag ⟨"p", .inclusion, 7⟩, []⟩]⟩], ""⟩

def sampleGraph : Graph Unit := fun _ => .mapping []

/-- A stage on which the section stands for an object, and something is pushed already. -/
def sampleStage : Stage (ContextStack Unit) :=
  { context := ⟨.object (.mapping [(.text "a", .container ())]), [.bool true]⟩ }

abbrev sampleHost : Host (Stage (ContextStack Unit)) ContextError Unit :=
  Stage.host (.ofStack sampleGraph) .empty

/-- Partials may not be nested at all. -/
def sampleRenderer : Renderer := { options := { inclusionLimit := 0 } }

/-- The rendering fails at the partial, which is visited with the object on top of the stack. -/
theorem frames_render_sample :
    (sampleRenderer.render sampleHost sampleGraph sampleDocument sampleStage).result =
        .error (.tooDeep "p" 0) ∧
      (sampleRenderer.render sampleHost sampleGraph sampleDocument sampleStage).world.context.frames =
        sampleStage.context.frames ∧
      ∃ machine, (visitor sampleRenderer.options sampleHost sampleGraph).Reaches
          (sampleRenderer.start sampleDocument sampleStage) machine ∧
        machine.state.world.context.frames =
          .object (.mapping []) :: sampleStage.context.frames := by
  have hf := frames_render sampleRenderer (Stage.seat sampleGraph .empty) sampleDocument sampleStage
  refine ⟨?_, hf.1, ?_⟩
  · rw [Renderer.render_eq_of_ends ⟨7, rfl⟩]
    rfl
  -- four steps lead into the scope of the section
  · have hr : (visitor sampleRenderer.options sampleHost sampleGraph).Reaches
        (sampleRenderer.start sampleDocument sampleStage) _ :=
      .tail (.tail (.tail (.tail .refl rfl) rfl) rfl) rfl
    exact ⟨_, hr, (hf.2 _ hr).1⟩

end Stencil.Render

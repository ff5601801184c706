import Stencil.Proofs.Render.Indifference

/-!
# Who made a call

A record says which calls a host received, but not at which node. An account says that as well: each call
is put down with the label of the node whose visit made it, and the calls that enter and leave scopes are
put down without one. To keep it, the visitor deals with a host of its own at each label
(`Render.visitorAt`), which puts down that label with every call.

Keeping an account does not change a rendering. Walks of such visitors go side by side if their hosts are
alike, label by label (`Render.simulates_at`). So a rendering with an account halts, and without the labels
the account is the record (`Renderer.calls_account`).
-/

set_option autoImplicit false

namespace Stencil

open Walk

variable {ω τ ε ν α : Type}

/-- A call with the label of the node that it was made for; the calls of hooks have none. -/
abbrev Charge (ν : Type) := Option Label × Call ν

/-- An action that also puts a call to account, whether or not it fails. -/
def charging (origin : Option Label) (call : Call ν) (action : EStateM ε ω α) :
    EStateM ε (ω × List (Charge ν)) α := fun whole =>
  match action whole.1 with
  | .ok answer world => .ok answer (world, whole.2 ++ [(origin, call)])
  | .error error world => .error error (world, whole.2 ++ [(origin, call)])

/-- The same host with all calls of it put down to this origin. -/
def Host.charged (host : Host ω ε ν) (origin : Option Label) : Host (ω × List (Charge ν)) ε ν where
  context :=
    { lookup := fun name => charging origin (.lookup name) (host.context.lookup name)
      scopes := host.context.scopes.map fun scopes =>
        { push := fun value => charging origin (.push value) (scopes.push value)
          pop := charging origin .pop scopes.pop } }
  write text := charging origin (.write text) (host.write text)
  load name := charging origin (.load name) (host.load name)
  note notice whole := (host.note notice whole.1, whole.2 ++ [(origin, .note notice)])

/-! ## Nothing is beyond all names -/

theorem Label.within_univ (label : Label) : label.Within Set.univ := by
  cases label with
  | root => trivial
  | text content position => trivial
  | tag tag =>
    intro part _
    exact Set.mem_univ part

theorem Document.within_univ (document : Document) : document.Every (Label.Within Set.univ) := by
  intro node _
  exact every_of_forall Label.within_univ node

theorem sourceWithin_univ (source : String) : SourceWithin Set.univ source := by
  intro document _
  exact document.within_univ

namespace Render

/-! ## A host for each label -/

/-- What rendering does on a walk, with a host of its own at each label and one more for hooks. -/
def visitorAt (options : RenderOptions) (hosts : Option Label → Host ω ε ν) (graph : Graph ν) :
    Visitor (Pass ω) (RenderError ε) (Hook ν) where
  visit node depth := visit options (hosts (some node.label)) graph node depth
  enter := enter (hosts none)
  leave := leave (hosts none)

section Hosts

variable {hosts : Option Label → Host ω ε ν} {others : Option Label → Host τ ε ν}
  {worlds : ω → τ → Prop} (options : RenderOptions) (graph : Graph ν)

/-- If the hosts are alike at each label, walks go side by side. -/
theorem simulates_at (h : ∀ origin, (hosts origin).Alike (others origin) Set.univ Eq worlds) :
    (visitorAt options hosts graph).Simulates (Node.Every (Label.Within Set.univ)) (Hook.Alike Eq)
      (Pass.Alike Set.univ worlds) (visitorAt options others graph) where
  children hn := hn.children
  visit {node} hn depth :=
    (twins_of_alike (h (some node.label))).visit (admissible_eq graph Set.univ) options hn depth
  enter hh := (twins_of_alike (h none)).enter hh
  leave hh := (twins_of_alike (h none)).leave hh

theorem start_at (nodes : List Node) (cache : Cache) (inclusions : Nat) {world : ω} {around : τ}
    (hw : worlds world around) :
    Machine.Alike (Node.Every (Label.Within Set.univ)) (Hook.Alike (Eq : Value ν → Value ν → Prop))
      (Pass.Alike Set.univ worlds) (Visitor.start nodes ⟨cache, inclusions, world⟩)
      (Visitor.start nodes ⟨cache, inclusions, around⟩) := by
  apply Visitor.start_alike
  · intro node _
    exact every_of_forall Label.within_univ node
  · refine ⟨rfl, ?_, rfl, hw⟩
    intro name document _
    exact document.within_univ

end Hosts

/-! ## The account and the record -/

/-- The same world, with an account that comes to the record. -/
structure Balanced (whole : ω × List (Charge ν)) (beside : ω × List (Call ν)) : Prop where
  world : whole.1 = beside.1
  calls : whole.2.map Prod.snd = beside.2

theorem Balanced.add {whole : ω × List (Charge ν)} {beside : ω × List (Call ν)}
    (h : Balanced whole beside) (world : ω) (origin : Option Label) (call : Call ν) :
    Balanced (world, whole.2 ++ [(origin, call)]) (world, beside.2 ++ [call]) := by
  refine ⟨rfl, ?_⟩
  rw [List.map_append, h.calls]
  rfl

theorem matches_balanced (origin : Option Label) (call : Call ν) (action : EStateM ε ω α) :
    Matches Eq Balanced (charging origin call action) (recording call action) := by
  intro whole beside hb
  simp only [charging, recording, ← hb.world]
  cases action whole.1 with
  | ok answer world => exact .ok rfl (hb.add world origin call)
  | error error world => exact .error (hb.add world origin call)

theorem charged_alike_recorded (host : Host ω ε ν) (origin : Option Label) :
    (host.charged origin).Alike host.recorded Set.univ Eq Balanced where
  lookup name _ := (matches_balanced origin (.lookup name) _).mono fun found reply h => by
    subst h
    exact optionRel_refl (fun _ => rfl) _
  write text := matches_balanced origin (.write text) _
  load name := (matches_balanced origin (.load name) _).mono fun answer reply h =>
    ⟨h, fun source _ => sourceWithin_univ source⟩
  note notice whole beside hb := by
    show Balanced (host.note notice whole.1, _) (host.note notice beside.1, _)
    rw [hb.world]
    exact hb.add _ origin (.note notice)
  scopes := by
    show Option.Rel _ (host.context.scopes.map _) (host.context.scopes.map _)
    cases host.context.scopes with
    | none => exact .none
    | some scopes =>
      refine .some ⟨fun {value beside} hv => ?_, matches_balanced origin .pop scopes.pop⟩
      subst hv
      exact matches_balanced origin (.push value) (scopes.push value)

theorem halts_account (options : RenderOptions) (host : Host ω ε ν) (graph : Graph ν)
    (nodes : List Node) (cache : Cache) (world : ω) :
    (visitorAt options host.charged graph).Halts (Visitor.start nodes ⟨cache, 0, (world, [])⟩) :=
  (simulates_at options graph (charged_alike_recorded host)).halts (start_at nodes cache 0 ⟨rfl, rfl⟩)
    (halts options host.recorded graph nodes ⟨cache, 0, (world, [])⟩)

end Render

/-- The rendering that an account is of, with the record that the account comes to. -/
def Rendering.calls (rendering : Rendering (ω × List (Charge ν)) ε) :
    Rendering (ω × List (Call ν)) ε where
  result := rendering.result
  renderer := rendering.renderer
  world := (rendering.world.1, rendering.world.2.map Prod.snd)

namespace Renderer

open Render

/-- Renders a document in a world and keeps an account of it. -/
def account (renderer : Renderer) (host : Host ω ε ν) (graph : Graph ν) (document : Document)
    (world : ω) : Rendering (ω × List (Charge ν)) ε :=
  let outcome := (visitorAt renderer.options host.charged graph).run
    (Visitor.start document.nodes ⟨renderer.cache, 0, (world, [])⟩)
    (halts_account renderer.options host graph document.nodes renderer.cache world)
  { result := outcome.verdict.map fun _ => ()
    renderer := { renderer with cache := outcome.state.cache }
    world := outcome.state.world }

/-- An account is of the rendering that there is without it. -/
theorem calls_account (renderer : Renderer) (host : Host ω ε ν) (graph : Graph ν) (document : Document)
    (world : ω) :
    (renderer.account host graph document world).calls =
      renderer.render host.recorded graph document (world, []) := by
  -- both records start out empty, and every deed adds the same call to either
  have hb : Balanced (world, ([] : List (Charge ν))) (world, []) := ⟨rfl, rfl⟩
  obtain ⟨hverdict, hpass⟩ :=
    (simulates_at renderer.options graph (charged_alike_recorded host)).run
      (start_at document.nodes renderer.cache 0 hb)
      (halts_account renderer.options host graph document.nodes renderer.cache world)
      (halts renderer.options host.recorded graph document.nodes _)
  have hresult : (renderer.account host graph document world).result =
      (renderer.render host.recorded graph document (world, [])).result :=
    congrArg (Except.map fun _ => ()) hverdict
  have hrenderer : (renderer.account host graph document world).renderer =
      (renderer.render host.recorded graph document (world, [])).renderer :=
    congrArg (fun cache => { renderer with cache := cache }) hpass.cache
  have hworld : ((renderer.account host graph document world).world.1,
      (renderer.account host graph document world).world.2.map Prod.snd) =
        (renderer.render host.recorded graph document (world, [])).world :=
    Prod.ext hpass.world.world hpass.world.calls
  rw [Rendering.calls, hresult, hrenderer, hworld]

end Renderer

end Stencil

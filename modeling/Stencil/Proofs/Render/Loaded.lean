import Stencil.Proofs.Render.Twins

/-!
# Hosts that answer alike

Whether two renderings find the same partials follows from what their hosts do: they load the same
sources and are told the same notices, and the rest is reading a source and keeping the document. So
hosts that do alike whatever is asked of them (`Host.Peers`) make surroundings that answer alike
(`surroundings_of_peers`), as long as no partial can be loaded in which there is a label that does not
fit. Scopes are left out here. Two hosts can be alike in all else and yet only one of them have scopes.
-/

set_option autoImplicit false

namespace Stencil

open Walk

variable {ω τ ε ν μ : Type}

/-- Every label fits in the document of this source, if it has one. -/
def SourceFits (fit : Label → Prop) (source : String) : Prop :=
  ∀ document, Template.parse source = .ok document → document.Every fit

/-- Two hosts that do alike whatever rendering asks of them, scopes apart. -/
structure Host.Peers (host : Host ω ε ν) (other : Host τ ε μ) (fit : Label → Prop)
    (values : Value ν → Value μ → Prop) (worlds : ω → τ → Prop) : Prop where
  lookup : ∀ tag, fit (.tag tag) → Matches (Option.Rel values) worlds
    (host.context.lookup tag.name) (other.context.lookup tag.name)
  write : ∀ text, Matches Eq worlds (host.write text) (other.write text)
  load : ∀ name, Matches (fun answer reply => answer = reply ∧ ∀ source ∈ answer,
    SourceFits fit source) worlds (host.load name) (other.load name)
  note : ∀ notice {world around}, worlds world around →
    worlds (host.note notice world) (other.note notice around)

namespace Render

/-- Passes with the same partials, all of which fit, and with worlds that go together. -/
structure Pass.Fits (fit : Label → Prop) (worlds : ω → τ → Prop) (pass : Pass ω)
    (other : Pass τ) : Prop where
  cache : pass.cache = other.cache
  known : ∀ name document, pass.cache.lookup name = some (some document) → document.Every fit
  inclusions : pass.inclusions = other.inclusions
  world : worlds pass.world other.world

section Fits

variable {fit : Label → Prop} {worlds : ω → τ → Prop} {values : Value ν → Value μ → Prop}
  {host : Host ω ε ν} {other : Host τ ε μ}

theorem matches_lift_worlds {α β : Type} {answers : α → β → Prop} {action : EStateM ε ω α}
    {beside : EStateM ε τ β} (h : Matches answers worlds action beside) :
    Matches answers (Pass.Fits fit worlds) (lift action) (lift beside) := by
  refine matches_lift fun {pass around} hp => ?_
  rcases (h _ _ hp.world).exists_eq with ⟨_, _, _, _, ha, hb, hr, hs⟩ | ⟨error, _, _, ha, hb, hs⟩
  · rw [ha, hb]
    exact .ok hr ⟨hp.cache, hp.known, hp.inclusions, hs⟩
  · rw [ha, hb]
    exact .error ⟨hp.cache, hp.known, hp.inclusions, hs⟩

theorem matches_note (h : host.Peers other fit values worlds) (notice : Notice) :
    Matches Eq (Pass.Fits fit worlds) (note host notice) (note other notice) :=
  fun _ _ hp => .ok rfl ⟨hp.cache, hp.known, hp.inclusions, h.note notice hp.world⟩

theorem matches_notes (h : host.Peers other fit values worlds) (notices : List Notice) :
    Matches Eq (Pass.Fits fit worlds) (notices.forM (note host)) (notices.forM (note other)) := by
  induction notices with
  | nil => exact matches_pure rfl
  | cons notice rest ih => exact (matches_note h notice).bind fun _ _ _ => ih

theorem matches_remember (name : String) {found : Option Document}
    (hf : ∀ document ∈ found, document.Every fit) :
    Matches Eq (Pass.Fits fit worlds)
      (modify fun pass => { pass with cache := (name, found) :: pass.cache } : Action ω ε Unit)
      (modify fun pass => { pass with cache := (name, found) :: pass.cache } : Action τ ε Unit) := by
  intro pass beside hp
  refine .ok rfl ⟨?_, fun asked document hl => ?_, hp.inclusions, hp.world⟩
  · exact congrArg ((name, found) :: ·) hp.cache
  · have hl : ((name, found) :: pass.cache).lookup asked = some (some document) := hl
    rw [List.lookup_cons] at hl
    split at hl
    · exact hf document (Option.some.inj hl)
    · exact hp.known asked document hl

theorem matches_partialDocument (h : host.Peers other fit values worlds) (name : String) :
    Matches (fun found reply => found = reply ∧ ∀ document ∈ found, document.Every fit)
      (Pass.Fits fit worlds) (partialDocument host name) (partialDocument other name) := by
  intro pass beside hp
  simp only [partialDocument, Bind.bind, EStateM.bind, get_apply, ← hp.cache]
  cases hl : pass.cache.lookup name with
  | some known =>
    refine .ok ⟨rfl, ?_⟩ hp
    rintro document rfl
    exact hp.known name document hl
  | none =>
    refine Matches.bind (matches_lift_worlds (h.load name)) (fun answer reply hanswer => ?_) _ _ hp
    obtain ⟨rfl, hsource⟩ := hanswer
    cases answer with
    | none =>
      have hevery : ∀ found ∈ (none : Option Document), found.Every fit := by simp
      exact (matches_note h _).bind fun _ _ _ =>
        (matches_remember name hevery).bind fun _ _ _ => matches_pure ⟨rfl, hevery⟩
    | some source =>
      refine (matches_notes h _).bind fun _ _ _ => ?_
      cases hread : (Template.read source).outcome with
      | error error => exact matches_throw _
      | ok document =>
        have hevery : ∀ found ∈ some document, found.Every fit := by
          rintro found ⟨⟩
          exact hsource source rfl document hread
        exact (matches_remember name hevery).bind fun _ _ _ =>
          (matches_note h _).bind fun _ _ _ => matches_pure ⟨rfl, hevery⟩

/-- Hosts that do alike make surroundings that answer alike. -/
theorem surroundings_of_peers (h : host.Peers other fit values worlds) :
    Peers host other fit values (Pass.Fits fit worlds) where
  inclusions hp := hp.inclusions
  count hp _ := ⟨hp.cache, hp.known, rfl, hp.world⟩
  lookup tag ht := matches_lift_worlds (h.lookup tag ht)
  write text := matches_lift_worlds (h.write text)
  partialDocument tag _ := matches_partialDocument h tag.name

end Fits

end Render

/-- If walks go side by side, the renderings for two hosts have one result, find the same partials, and
leave worlds that go together. -/
theorem Renderer.render_of_peers (renderer : Renderer) {host : Host ω ε ν} {other : Host τ ε μ}
    {graph : Graph ν} {graph' : Graph μ} {fit : Label → Prop} {values : Value ν → Value μ → Prop}
    {worlds : ω → τ → Prop} {hooks : Render.Hook ν → Render.Hook μ → Prop}
    (hh : host.Peers other fit values worlds)
    (hs : (Render.visitor renderer.options host graph).Simulates (Node.Every fit) hooks
      (Render.Pass.Fits fit worlds) (Render.visitor renderer.options other graph'))
    {document : Document} (hd : document.Every fit)
    (hc : ∀ name known, renderer.cache.lookup name = some (some known) → known.Every fit)
    {world : ω} {around : τ} (hw : worlds world around) :
    let rendering := renderer.render host graph document world
    let beside := renderer.render other graph' document around
    rendering.result = beside.result ∧ rendering.renderer = beside.renderer ∧
      worlds rendering.world beside.world := by
  obtain ⟨options, cache⟩ := renderer
  have hp : Render.Pass.Fits fit worlds ⟨cache, 0, world⟩ ⟨cache, 0, around⟩ := ⟨rfl, hc, rfl, hw⟩
  obtain ⟨hresult, hpass⟩ := (Render.surroundings_of_peers hh).render options hs hd hp
  refine ⟨hresult, ?_, (hpass 0).world⟩
  exact congrArg (Renderer.mk options) (hpass 0).cache

end Stencil

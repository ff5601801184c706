import Stencil.Proofs.Render.Records

/-!
# Raising the limit on inclusions

The limit on how deep partials may be nested is looked at in one place, when a partial is about to be
included. Below the limit a higher one makes no difference. So two renderings that differ in the limit
alone do the same until one of them comes to an inclusion that its limit bars. Until then they have made
the same calls, and what the one has written when it fails is the beginning of what the other writes.

Whether a rendering is refused (`Renderer.Refuses`) is told by its result if the scopes that it has open
can be left. Otherwise a scope that cannot be left can put its own error in the place of the refusal.
-/

set_option autoImplicit false

namespace Stencil

open Walk

variable {ω ε ν α : Type}

namespace Render

/-- The tag includes a partial, while as many inclusions are in progress as there may be. -/
structure Barred (options : RenderOptions) (node : Node) (tag : Tag) (pass : Pass ω) : Prop where
  label : node.label = .tag tag
  type : tag.type = .inclusion
  full : options.inclusionLimit ≤ pass.inclusions

variable {options : RenderOptions} {host : Host ω ε ν} {graph : Graph ν} {node : Node}
  {pass after : Pass ω}

theorem Barred.visit_eq {tag : Tag} (h : Barred options node tag pass) (host : Host ω ε ν)
    (graph : Graph ν) (depth : Int) :
    visit options host graph node depth pass =
      .error (.tooDeep tag.name options.inclusionLimit) pass := by
  rw [visit_of_inclusion options host graph h.label h.type]
  simp only [bind, EStateM.bind, requestPartial_of_le options host depth h.full]

/-- A visit that includes nothing does not depend on the limit. -/
theorem visit_eq_of_lacks (host : Host ω ε ν) (graph : Graph ν) (limit : Int)
    (hn : node.label.Lacks .inclusion) (depth : Int) :
    visit options host graph node depth =
      visit { options with inclusionLimit := limit } host graph node depth := by
  cases hl : node.label with
  | root => simp only [visit, hl]
  | text content position => simp only [visit, hl]
  | tag tag =>
    cases ht : tag.type with
    | inclusion => exact absurd ht (hn tag hl)
    | escaped | unescaped | sectionBegin | invertedBegin | sectionEnd | comment | switch | invalid =>
      simp only [visit, hl, ht]

theorem exists_inclusion (hn : ¬ node.label.Lacks .inclusion) :
    ∃ tag, node.label = .tag tag ∧ tag.type = .inclusion := by
  simpa [Label.Lacks] using hn

/-- A higher limit makes no difference to a visit unless the inclusion is barred by the lower one. -/
theorem visit_eq_or_barred (host : Host ω ε ν) (graph : Graph ν) {limit : Int}
    (hlimit : options.inclusionLimit ≤ limit) (node : Node) (depth : Int) (pass : Pass ω) :
    visit options host graph node depth pass =
        visit { options with inclusionLimit := limit } host graph node depth pass ∨
      ∃ tag, Barred options node tag pass := by
  by_cases hn : node.label.Lacks .inclusion
  · left
    rw [visit_eq_of_lacks host graph limit hn]
  · obtain ⟨tag, hl, ht⟩ := exists_inclusion hn
    by_cases hfull : options.inclusionLimit ≤ pass.inclusions
    · right
      exact ⟨tag, hl, ht, hfull⟩
    · left
      by_cases hraised : limit ≤ pass.inclusions
      · exact absurd (Int.le_trans hlimit hraised) hfull
      · rw [visit_of_inclusion options host graph hl ht,
          visit_of_inclusion { options with inclusionLimit := limit } host graph hl ht]
        simp only [bind, EStateM.bind, requestPartial_of_lt options host depth hfull,
          requestPartial_of_lt { options with inclusionLimit := limit } host depth hraised]

/-! ## What is refused -/

theorem Plain.error_cases {action : Action ω ε α} (h : Plain host action) {error : RenderError ε}
    (he : action pass = .error error after) :
    (∃ numeral, error = .item numeral) ∨ ∃ cause, error = .host cause := by
  induction h generalizing pass after with
  | pure => cases he
  | item numeral =>
    cases he
    exact .inl ⟨numeral, rfl⟩
  | lookup name =>
    obtain ⟨cause, heq, _⟩ := of_lift_error he
    exact .inr ⟨cause, heq⟩
  | write text =>
    obtain ⟨cause, heq, _⟩ := of_lift_error he
    exact .inr ⟨cause, heq⟩
  | @bind α β first next _ _ ihf ihn =>
    simp only [Bind.bind, EStateM.bind] at he
    cases hr : first pass with
    | ok answer between =>
      rw [hr] at he
      exact ihn answer he
    | error other between =>
      rw [hr] at he
      cases he
      exact ihf hr

/-- A visit complains of depth only where the inclusion is barred. -/
theorem barred_of_visit {depth : Int} {name : String} {limit : Int}
    (h : visit options host graph node depth pass = .error (.tooDeep name limit) after) :
    ∃ tag, Barred options node tag pass := by
  by_cases hn : node.label.Lacks .inclusion
  · rcases (plain_visit options host graph hn depth).error_cases h with ⟨_, heq⟩ | ⟨_, heq⟩
    · cases heq
    · cases heq
  · obtain ⟨tag, hl, ht⟩ := exists_inclusion hn
    by_cases hfull : options.inclusionLimit ≤ pass.inclusions
    · exact ⟨tag, hl, ht, hfull⟩
    · -- below the limit it can only be the loader or the partial that is at fault
      have ha := asked host tag.name pass
      rw [visit_of_inclusion options host graph hl ht] at h
      simp only [bind, EStateM.bind, requestPartial_of_lt options host depth hfull] at h
      cases hp : partialDocument host tag.name pass with
      | ok found between =>
        rw [hp] at h
        cases h
      | error other between =>
        rw [hp] at h ha
        cases h
        cases ha with
        | failed hu => cases hu

theorem error_of_enter {hook : Hook ν} {error : RenderError ε}
    (h : enter host hook pass = .error error after) : ∃ cause, error = .host cause := by
  cases hook with
  | inclusion => cases h
  | scope value =>
    cases hs : host.context.scopes with
    | none =>
      simp only [enter, hs] at h
      cases h
    | some scopes =>
      rw [enter_scope_eq hs] at h
      obtain ⟨cause, heq, _⟩ := of_lift_error h
      exact ⟨cause, heq⟩

theorem error_of_leave {hook : Hook ν} {error : RenderError ε}
    (h : leave host hook pass = .error error after) : ∃ cause, error = .host cause := by
  cases hook with
  | inclusion => cases h
  | scope value =>
    cases hs : host.context.scopes with
    | none =>
      simp only [leave, hs] at h
      cases h
    | some scopes =>
      rw [leave_scope_eq hs] at h
      simp only [bind, EStateM.bind] at h
      cases hp : (lift scopes.pop : Action ω ε (Value ν)) pass with
      | ok popped between =>
        rw [hp] at h
        cases h
      | error other between =>
        rw [hp] at h
        cases h
        obtain ⟨cause, heq, _⟩ := of_lift_error hp
        exact ⟨cause, heq⟩

end Render

namespace Renderer

open Render

/-- The rendering comes to an inclusion that the limit bars. -/
def Refuses (renderer : Renderer) (host : Host ω ε ν) (graph : Graph ν) (document : Document)
    (world : ω) : Prop :=
  ∃ machine node depth tag,
    (visitor renderer.options host graph).Reaches (renderer.start document world) machine ∧
      machine.IsAt node depth ∧ Barred renderer.options node tag machine.state

variable {renderer : Renderer} {host : Host ω ε ν} {graph : Graph ν} {document : Document}
  {world : ω}

theorem refuses_of_result {name : String} {limit : Int}
    (h : (renderer.render host graph document world).result = .error (.tooDeep name limit)) :
    renderer.Refuses host graph document world := by
  cases Visitor.raises_of_verdict _ (result_eq_error_iff.1 h) with
  | visit hr hat hv =>
    obtain ⟨tag, hb⟩ := barred_of_visit hv
    exact ⟨_, _, _, tag, hr, hat, hb⟩
  | enter he =>
    obtain ⟨_, heq⟩ := error_of_enter he
    cases heq
  | leave hl =>
    obtain ⟨_, heq⟩ := error_of_leave hl
    cases heq

/-- The result tells of a refusal, as long as scopes can be left. -/
theorem refuses_iff {holds : List (Value ν) → ω → Prop} (hs : host.Stacks holds)
    (hw : holds [] world) :
    renderer.Refuses host graph document world ↔
      ∃ name limit, (renderer.render host graph document world).result =
        .error (.tooDeep name limit) := by
  constructor
  · intro ⟨machine, node, depth, tag, hr, hat, hb⟩
    exact ⟨_, _, hs.result_of_visit hw hr hat (hb.visit_eq host graph depth)⟩
  · intro ⟨name, limit, h⟩
    exact refuses_of_result h

/-! ## Two limits -/

/-- Under a higher limit a rendering does the same, or the lower one bars an inclusion that both come
to. -/
theorem render_eq_or_refuses (options : RenderOptions) (cache : Cache) (host : Host ω ε ν)
    (graph : Graph ν) (document : Document) (world : ω) {limit : Int}
    (hlimit : options.inclusionLimit ≤ limit) :
    let lower : Renderer := ⟨options, cache⟩
    let raised : Renderer := ⟨{ options with inclusionLimit := limit }, cache⟩
    let low := lower.render host graph document world
    let high := raised.render host graph document world
    (low.result = high.result ∧ low.world = high.world ∧ low.renderer.cache = high.renderer.cache) ∨
      ∃ machine node depth tag,
        (visitor lower.options host graph).Reaches (lower.start document world) machine ∧
        (visitor raised.options host graph).Reaches (raised.start document world) machine ∧
        machine.IsAt node depth ∧ Barred lower.options node tag machine.state := by
  intro lower raised low high
  have he : (visitor lower.options host graph).enter = (visitor raised.options host graph).enter := rfl
  have hl : (visitor lower.options host graph).leave = (visitor raised.options host graph).leave := rfl
  -- hooks do not look at the limit, so the walks part at a visit if they do
  rcases Visitor.run_eq_or_parts he hl (halts lower.options host graph document.nodes ⟨cache, 0, world⟩)
      (halts raised.options host graph document.nodes _) with
    heq | ⟨machine, node, depth, hr, hr', hat, hne⟩
  · left
    refine ⟨?_, ?_, ?_⟩
    · exact congrArg (fun outcome => outcome.verdict.map fun _ => ()) heq
    · exact congrArg (fun outcome => outcome.state.world) heq
    · exact congrArg (fun outcome => outcome.state.cache) heq
  · right
    rcases visit_eq_or_barred host graph hlimit node depth machine.state with heq | ⟨tag, hb⟩
    · exact absurd heq hne
    · exact ⟨machine, node, depth, tag, hr, hr', hat, hb⟩

/-- **Raising the limit on inclusions changes nothing but refusals.** A rendering that is not refused makes
the same calls under a higher limit, in the same order, and ends in the same way. One that is refused has
written the beginning of what is written under the higher limit. And as long as scopes can be left, it is
the refusal that a refused rendering ends with. -/
theorem render_of_limit_le (options : RenderOptions) (cache : Cache) (host : Host ω ε ν)
    (graph : Graph ν) (document : Document) (world : ω) {limit : Int}
    (hlimit : options.inclusionLimit ≤ limit) :
    let lower : Renderer := ⟨options, cache⟩
    let raised : Renderer := ⟨{ options with inclusionLimit := limit }, cache⟩
    let low := lower.render host.recorded graph document (world, [])
    let high := raised.render host.recorded graph document (world, [])
    (¬ lower.Refuses host.recorded graph document (world, []) →
        low.result = high.result ∧ low.world = high.world ∧
          low.renderer.cache = high.renderer.cache) ∧
      chunks low.world.2 <+: chunks high.world.2 ∧
      (host.Leavable → (lower.Refuses host.recorded graph document (world, []) ↔
        ∃ name bound, low.result = .error (.tooDeep name bound))) := by
  intro lower raised low high
  have hiff : host.Leavable → (lower.Refuses host.recorded graph document (world, []) ↔
      ∃ name bound, low.result = .error (.tooDeep name bound)) := by
    intro hl
    obtain ⟨holds, hs, hw⟩ := hl.stacks
    exact refuses_iff hs.recorded (hw world)
  rcases render_eq_or_refuses options cache host.recorded graph document (world, []) hlimit with
    hsame | ⟨machine, node, depth, tag, hr, hr', hat, hb⟩
  · refine ⟨fun _ => hsame, ?_, hiff⟩
    have hwritten : chunks low.world.2 = chunks high.world.2 := by rw [hsame.2.1]
    exact hwritten ▸ List.prefix_refl _
  · refine ⟨fun hn => absurd ⟨machine, node, depth, tag, hr, hat, hb⟩ hn, ?_, hiff⟩
    -- what has been written so far is all for the one and a beginning for the other
    have hlow : chunks low.world.2 = chunks machine.state.world.2 :=
      (after_visit_error host rfl hr hat (hb.visit_eq host.recorded graph depth)).1
    have hhigh : machine.state.world.2 <+: high.world.2 := prefix_render hr'
    rw [hlow]
    exact hhigh.filterMap Call.chunk?

/-- A partial between two texts. -/
def betweenDocument : Document :=
  ⟨[⟨.text "x" 0, []⟩, ⟨.tag ⟨"p", .inclusion, 1⟩, []⟩, ⟨.text "y" 7, []⟩], ""⟩

/-- If no partials may be included, the rendering ends after the first text. -/
theorem render_of_limit_le_between :
    let low := sampleRenderer.render sampleHost.recorded sampleGraph betweenDocument (sampleStage, [])
    let high := Renderer.render { options := { inclusionLimit := 1 } } sampleHost.recorded sampleGraph
      betweenDocument (sampleStage, [])
    sampleRenderer.Refuses sampleHost.recorded sampleGraph betweenDocument (sampleStage, []) ∧
      chunks low.world.2 = ["x"] ∧ chunks high.world.2 = ["x", "y"] ∧
      chunks low.world.2 <+: chunks high.world.2 := by
  intro low high
  have h := render_of_limit_le { inclusionLimit := 0 } [] sampleHost sampleGraph betweenDocument
    sampleStage (show (0 : Int) ≤ 1 by decide)
  have hlow : low = _ := render_eq_of_ends ⟨5, rfl⟩
  have hhigh : high = _ := render_eq_of_ends ⟨12, rfl⟩
  refine ⟨?_, ?_, ?_, h.2.1⟩
  · apply (h.2.2 (.stacked (Stage.seat sampleGraph .empty))).2
    exact ⟨"p", 0, congrArg Rendering.result hlow⟩
  · rw [hlow]
    rfl
  · rw [hhigh]
    rfl

end Renderer

end Stencil

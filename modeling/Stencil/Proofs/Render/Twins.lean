import Stencil.Proofs.Data.Alike
import Stencil.Proofs.Render.Action
import Stencil.Proofs.Walk.Simulation

/-!
# Two renderings at once

Two renderings of a document go alike if all that they ask of what surrounds them is answered alike:
lookups, writes, partials and scopes. `Twins` lists these, for hosts with different worlds and over
different data. What goes with what is a relation on passes, which may hold together the caches and
the worlds in any way, and a relation on values, which has to be admissible for the names that the
document mentions.

The rest of rendering is the same on both sides, so walks over the document go side by side
(`Twins.simulates`), and the renderings come out with one result (`Twins.render`).

`Peers` is all of this but the scopes. Visits match already then, provided that the same becomes of
sections on both sides (`Peers.visit`), and that can be so although only one side has scopes.
-/

set_option autoImplicit false

namespace Stencil

variable {ω τ ε ν μ α β : Type}

/-- Every label in the tree has the property. -/
inductive Node.Every (property : Label → Prop) : Node → Prop
  | intro {node : Node} (hl : property node.label)
    (hc : ∀ child ∈ node.children, Every property child) : Every property node

def Document.Every (property : Label → Prop) (document : Document) : Prop :=
  ∀ node ∈ document.nodes, node.Every property

theorem Node.Every.label {property : Label → Prop} {node : Node} (h : node.Every property) :
    property node.label := by
  cases h with
  | intro hl _ => exact hl

theorem Node.Every.children {property : Label → Prop} {node : Node} (h : node.Every property) :
    ∀ child ∈ node.children, child.Every property := by
  cases h with
  | intro _ hc => exact hc

theorem every_of_forall {property : Label → Prop} (h : ∀ label, property label) (node : Node) :
    node.Every property := by
  cases node with
  | mk label children =>
    refine .intro (h label) ?_
    intro child _
    exact every_of_forall h child

/-- The label is no tag of this type. -/
def Label.Lacks (type : TagType) (label : Label) : Prop :=
  ∀ tag, label = .tag tag → tag.type ≠ type

namespace Render

open Walk

/-- Hooks for scopes of values that go together, or for inclusions. -/
inductive Hook.Alike (values : Value ν → Value μ → Prop) : Hook ν → Hook μ → Prop
  | scope {value : Value ν} {beside : Value μ} (h : values value beside) :
    Hook.Alike values (.scope value) (.scope beside)
  | inclusion : Hook.Alike values .inclusion .inclusion

inductive SectionPlan.Alike (values : Value ν → Value μ → Prop) : SectionPlan ν → SectionPlan μ → Prop
  | absent : SectionPlan.Alike values .absent .absent
  | plain : SectionPlan.Alike values .plain .plain
  | inScopes {value : Value ν} {beside : Value μ} (h : values value beside) :
    SectionPlan.Alike values (.inScopes value) (.inScopes beside)

/-- What surrounds two renderings answers them alike, scopes apart. -/
structure Peers (host : Host ω ε ν) (other : Host τ ε μ) (fit : Label → Prop)
    (values : Value ν → Value μ → Prop) (passes : Pass ω → Pass τ → Prop) : Prop where
  inclusions : ∀ {pass beside}, passes pass beside → pass.inclusions = beside.inclusions
  count : ∀ {pass beside}, passes pass beside → ∀ inclusions,
    passes (pass.count inclusions) (beside.count inclusions)
  lookup : ∀ tag, fit (.tag tag) → Matches (Option.Rel values) passes
    (lift (host.context.lookup tag.name)) (lift (other.context.lookup tag.name))
  write : ∀ text, Matches Eq passes (lift (host.write text)) (lift (other.write text))
  partialDocument : ∀ tag, fit (.tag tag) →
    Matches (fun found reply => found = reply ∧ ∀ document ∈ found, document.Every fit) passes
      (partialDocument host tag.name) (partialDocument other tag.name)

/-- What surrounds two renderings answers them alike. -/
structure Twins (host : Host ω ε ν) (other : Host τ ε μ) (fit : Label → Prop)
    (values : Value ν → Value μ → Prop) (passes : Pass ω → Pass τ → Prop) : Prop
    extends Peers host other fit values passes where
  scopes : Option.Rel (fun scopes besides =>
    (∀ {value beside}, values value beside →
      Matches Eq passes (lift (scopes.push value)) (lift (besides.push beside))) ∧
    Matches values passes (lift scopes.pop) (lift besides.pop))
    host.context.scopes other.context.scopes

section Lift

variable {answers : α → β → Prop} {passes : Pass ω → Pass τ → Prop}

/-- Actions of hosts match as actions of renderings if the passes still go together with the worlds
that the actions lead to. -/
theorem matches_lift {action : EStateM ε ω α} {other : EStateM ε τ β}
    (h : ∀ {pass beside}, passes pass beside → Alike answers
      (fun world around => passes { pass with world := world } { beside with world := around })
      (action pass.world) (other beside.world)) :
    Matches answers passes (lift action) (lift other) := by
  intro pass beside hp
  rcases (h hp).exists_eq with ⟨_, _, _, _, ha, hb, hr, hs⟩ | ⟨error, _, _, ha, hb, hs⟩
  · rw [lift_of_ok ha, lift_of_ok hb]
    exact .ok hr hs
  · rw [lift_of_error ha, lift_of_error hb]
    exact .error hs

end Lift

section Plans

variable {graph : Graph ν} {graph' : Graph μ} {names : Set String}
  {values : Value ν → Value μ → Prop}

theorem sectionPlan_alike (ha : Admissible graph graph' names values) (isScoped : Bool)
    {found : Option (Value ν)} {reply : Option (Value μ)} (h : Option.Rel values found reply) :
    SectionPlan.Alike values (.of isScoped found) (.of isScoped reply) := by
  cases h with
  | none => exact .absent
  | some hv =>
    simp only [SectionPlan.of, ha.isTruthy_eq hv]
    split
    · exact .plain
    · split
      · exact .absent
      · rcases ha.cases hv with
          ⟨content, rfl, rfl⟩ | ⟨flag, rfl, rfl⟩ | ⟨_, _, rfl, rfl⟩ | ⟨_, _, rfl, rfl⟩
        · exact .plain
        · exact .plain
        · exact .inScopes hv
        · exact .inScopes hv

theorem isAbsent_eq {plan : SectionPlan ν} {beside : SectionPlan μ}
    (h : SectionPlan.Alike values plan beside) : plan.isAbsent = beside.isAbsent := by
  cases h <;> rfl

theorem sectionScopes_agree (ha : Admissible graph graph' names values) {value : Value ν}
    {beside : Value μ} (hv : values value beside) :
    Agree (List.Forall₂ values) (sectionScopes graph value) (sectionScopes graph' beside) := by
  rcases ha.cases hv with
    ⟨content, rfl, rfl⟩ | ⟨flag, rfl, rfl⟩ | ⟨_, _, rfl, rfl⟩ | ⟨_, _, rfl, rfl⟩
  · exact .ok (.cons hv .nil)
  · exact .ok (.cons hv .nil)
  · exact ha.items_agree hv
  · exact .ok (.cons hv .nil)

theorem requests_agree (ha : Admissible graph graph' names values) {fit : Node → Prop} {node : Node}
    (hc : ∀ child ∈ node.children, fit child) (depth : Int) {plan : SectionPlan ν}
    {beside : SectionPlan μ} (h : SectionPlan.Alike values plan beside) :
    Agree (AnswersAlike fit (Hook.Alike values)) (plan.requests graph node depth)
      (beside.requests graph' node depth) := by
  cases h with
  | absent => exact .ok ⟨rfl, .nil⟩
  | plain => exact .ok ⟨rfl, .nil⟩
  | inScopes hv =>
    refine (sectionScopes_agree ha hv).map fun hvalues => ⟨rfl, ?_⟩
    -- one request for each value, and the values go together one by one
    rw [List.forall₂_map_left_iff, List.forall₂_map_right_iff]
    exact hvalues.imp fun value beside hvalue => ⟨rfl, rfl, .some (.scope hvalue), hc⟩

end Plans

section Surroundings

variable {host : Host ω ε ν} {other : Host τ ε μ} {fit : Label → Prop}
  {values : Value ν → Value μ → Prop} {passes : Pass ω → Pass τ → Prop} {graph : Graph ν}
  {graph' : Graph μ} {names : Set String}

namespace Peers

theorem recount (h : Peers host other fit values passes) (f : Nat → Nat) :
    Matches (fun _ _ => True) passes
      (modify fun pass => { pass with inclusions := f pass.inclusions } : Action ω ε Unit)
      (modify fun pass => { pass with inclusions := f pass.inclusions } : Action τ ε Unit) := by
  intro pass beside hp
  have hcount := h.count hp (f pass.inclusions)
  refine .ok trivial ?_
  show passes (pass.count (f pass.inclusions)) (beside.count (f beside.inclusions))
  rw [← h.inclusions hp]
  exact hcount

theorem substitute (h : Peers host other fit values passes)
    (ha : Admissible graph graph' names values) {tag : Tag} (ht : fit (.tag tag)) (escape : Bool) :
    Matches Eq passes (substitute host tag.name escape) (substitute other tag.name escape) := by
  unfold Render.substitute
  split
  · exact matches_pure rfl
  · refine (h.lookup tag ht).bind fun found reply hfound => ?_
    cases hfound with
    | none => exact matches_pure rfl
    | some hv =>
      simp only [substitution, ha.asText_eq hv]
      exact h.write _

/-- What becomes of a section agrees if it does whenever the values agree that its name is found to
be. -/
theorem plan {planned : Value ν → Value μ → Prop} (h : Peers host other fit values passes)
    (hplan : ∀ {found reply}, Option.Rel values found reply →
      SectionPlan.Alike planned (.of host.isScoped found) (.of other.isScoped reply))
    {tag : Tag} (ht : fit (.tag tag)) :
    Matches (SectionPlan.Alike planned) passes (plan host tag.name) (plan other tag.name) :=
  (h.lookup tag ht).bind fun _ _ hfound => matches_pure (hplan hfound)

theorem requestPartial {hooks : Hook ν → Hook μ → Prop} (h : Peers host other fit values passes)
    (hi : hooks .inclusion .inclusion) (options : RenderOptions) {tag : Tag} (ht : fit (.tag tag))
    (depth : Int) :
    Matches (List.Forall₂ (Request.Alike (Node.Every fit) hooks)) passes
      (requestPartial options host tag.name depth) (requestPartial options other tag.name depth) := by
  intro pass beside hp
  by_cases hlimit : options.inclusionLimit ≤ pass.inclusions
  · rw [requestPartial_of_le options host depth hlimit,
      requestPartial_of_le options other depth (h.inclusions hp ▸ hlimit)]
    exact .error hp
  · rw [requestPartial_of_lt options host depth hlimit,
      requestPartial_of_lt options other depth (h.inclusions hp ▸ hlimit)]
    refine (h.partialDocument tag ht).bind (fun found reply hfound => matches_pure ?_) _ _ hp
    obtain ⟨rfl, hevery⟩ := hfound
    cases found with
    | none => exact .nil
    | some document => exact .cons ⟨rfl, rfl, .some hi, hevery document rfl⟩ .nil

/-- Visits match. The scopes that sections ask for can be of other values than the ones that names are
found to be. -/
theorem visit {planned : Value ν → Value μ → Prop} {parts : Set String}
    (h : Peers host other fit values passes) (ha : Admissible graph graph' names values)
    (hs : Admissible graph graph' parts planned)
    (hplan : ∀ {found reply}, Option.Rel values found reply →
      SectionPlan.Alike planned (.of host.isScoped found) (.of other.isScoped reply))
    (options : RenderOptions) {node : Node} (hn : node.Every fit) (depth : Int) :
    Matches (AnswersAlike (Node.Every fit) (Hook.Alike planned)) passes
      (visit options host graph node depth) (visit options other graph' node depth) := by
  have hproceed : AnswersAlike (Node.Every fit) (Hook.Alike planned) (.proceed, []) (.proceed, []) :=
    ⟨rfl, .nil⟩
  unfold Render.visit
  split
  · exact matches_pure hproceed
  · exact (h.write _).bind fun _ _ _ => matches_pure hproceed
  · next tag hl =>
    have ht : fit (.tag tag) := hl ▸ hn.label
    split
    · exact (h.substitute ha ht _).bind fun _ _ _ => matches_pure hproceed
    · exact (h.substitute ha ht _).bind fun _ _ _ => matches_pure hproceed
    · refine (h.plan hplan ht).bind fun plan beside hplan => ?_
      rcases (requests_agree hs hn.children depth hplan).exists_eq with
        ⟨_, _, hr, hr', hrequests⟩ | ⟨error, hr, hr'⟩
      · rw [hr, hr']
        exact matches_pure hrequests
      · rw [hr, hr']
        exact matches_throw _
    · refine (h.plan hplan ht).bind fun plan beside hplan => ?_
      rw [isAbsent_eq hplan]
      exact matches_pure ⟨rfl, .nil⟩
    · exact (h.requestPartial .inclusion options ht depth).bind fun _ _ hr => matches_pure ⟨rfl, hr⟩
    all_goals exact matches_pure hproceed

/-- Renderings that walk side by side have one result, and leave passes that go together. -/
theorem render {hooks : Hook ν → Hook μ → Prop} (h : Peers host other fit values passes)
    (options : RenderOptions)
    (hs : (visitor options host graph).Simulates (Node.Every fit) hooks passes
      (visitor options other graph')) {document : Document} (hd : document.Every fit)
    {cache besides : Cache} {world : ω} {around : τ}
    (hp : passes ⟨cache, 0, world⟩ ⟨besides, 0, around⟩) :
    let rendering := Renderer.render ⟨options, cache⟩ host graph document world
    let other := Renderer.render ⟨options, besides⟩ other graph' document around
    rendering.result = other.result ∧ ∀ inclusions,
      passes ⟨rendering.renderer.cache, inclusions, rendering.world⟩
        ⟨other.renderer.cache, inclusions, other.world⟩ := by
  have hstart : Machine.Alike (Node.Every fit) hooks passes
      (Renderer.start ⟨options, cache⟩ document world)
      (Renderer.start ⟨options, besides⟩ document around) :=
    Visitor.start_alike hd hp
  obtain ⟨hverdict, hpasses⟩ := hs.run hstart
    (halts options host graph document.nodes _) (halts options other graph' document.nodes _)
  -- what the count is at the end is no part of a rendering, so any will do
  exact ⟨congrArg (Except.map fun _ => ()) hverdict, h.count hpasses⟩

end Peers

namespace Twins

theorem scopes_cases (h : Twins host other fit values passes) :
    (host.context.scopes = none ∧ other.context.scopes = none) ∨
      ∃ scopes besides, host.context.scopes = some scopes ∧ other.context.scopes = some besides ∧
        (∀ {value beside}, values value beside →
          Matches Eq passes (lift (scopes.push value)) (lift (besides.push beside))) ∧
        Matches values passes (lift scopes.pop) (lift besides.pop) := by
  have hs := h.scopes
  cases hl : host.context.scopes with
  | none =>
    rw [hl] at hs
    cases hr : other.context.scopes with
    | none => exact .inl ⟨rfl, rfl⟩
    | some besides => rw [hr] at hs; cases hs
  | some scopes =>
    rw [hl] at hs
    cases hr : other.context.scopes with
    | none => rw [hr] at hs; cases hs
    | some besides =>
      rw [hr] at hs
      cases hs with
      | some hs => exact .inr ⟨scopes, besides, rfl, rfl, hs⟩

theorem isScoped_eq (h : Twins host other fit values passes) : host.isScoped = other.isScoped := by
  rcases h.scopes_cases with ⟨hl, hr⟩ | ⟨_, _, hl, hr, _⟩
  · simp only [Host.isScoped, hl, hr, Option.isSome_none]
  · simp only [Host.isScoped, hl, hr, Option.isSome_some]

theorem enter (h : Twins host other fit values passes) {hook : Hook ν} {beside : Hook μ}
    (hh : hook.Alike values beside) :
    Matches (fun _ _ => True) passes (enter host hook) (enter other beside) := by
  cases hh with
  | inclusion => exact h.recount (· + 1)
  | scope hv =>
    rcases h.scopes_cases with ⟨hl, hr⟩ | ⟨_, _, hl, hr, hpush, _⟩
    · simp only [Render.enter, hl, hr]
      exact matches_pure trivial
    · simp only [Render.enter, hl, hr]
      exact (hpush hv).mono fun _ _ _ => trivial

theorem leave (h : Twins host other fit values passes) {hook : Hook ν} {beside : Hook μ}
    (hh : hook.Alike values beside) :
    Matches (fun _ _ => True) passes (leave host hook) (leave other beside) := by
  cases hh with
  | inclusion => exact h.recount (· - 1)
  | scope hv =>
    rcases h.scopes_cases with ⟨hl, hr⟩ | ⟨_, _, hl, hr, _, hpop⟩
    · simp only [Render.leave, hl, hr]
      exact matches_pure trivial
    · simp only [Render.leave, hl, hr]
      exact hpop.bind fun _ _ _ => matches_pure trivial

variable (h : Twins host other fit values passes) (ha : Admissible graph graph' names values)

include h ha

theorem visit (options : RenderOptions) {node : Node} (hn : node.Every fit) (depth : Int) :
    Matches (AnswersAlike (Node.Every fit) (Hook.Alike values)) passes
      (visit options host graph node depth) (visit options other graph' node depth) := by
  refine h.toPeers.visit ha ha (fun hfound => ?_) options hn depth
  rw [h.isScoped_eq]
  exact sectionPlan_alike ha other.isScoped hfound

theorem simulates (options : RenderOptions) :
    (visitor options host graph).Simulates (Node.Every fit) (Hook.Alike values) passes
      (visitor options other graph') where
  children hn := hn.children
  visit hn depth := h.visit ha options hn depth
  enter hh := h.enter hh
  leave hh := h.leave hh

/-- Renderings in surroundings that answer alike have one result, and leave passes that go together. -/
theorem render (options : RenderOptions) {document : Document} (hd : document.Every fit)
    {cache besides : Cache} {world : ω} {around : τ}
    (hp : passes ⟨cache, 0, world⟩ ⟨besides, 0, around⟩) :
    let rendering := Renderer.render ⟨options, cache⟩ host graph document world
    let other := Renderer.render ⟨options, besides⟩ other graph' document around
    rendering.result = other.result ∧ ∀ inclusions,
      passes ⟨rendering.renderer.cache, inclusions, rendering.world⟩
        ⟨other.renderer.cache, inclusions, other.world⟩ :=
  h.toPeers.render options (h.simulates ha options) hd hp

end Twins

end Surroundings

end Render

end Stencil

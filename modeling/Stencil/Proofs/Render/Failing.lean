import Stencil.Proofs.Render.Ending

/-!
# What a rendering fails with

Over a stack of values, with a sink that does not fail, the visit of a node fails for one of five
reasons (`Failing`): its lookup cannot be done, the items of its list cannot all be had, it includes a
partial too deep, the loader fails for the partial, or the partial is no template. A rendering fails with
the error of the visit that it fails at (`exists_failing`).

What the walk comes to is told by what it starts from and by what the loader gives: each node is a node
of the document or of a partial that such a node includes (`sourced_of_reaches`).
-/

set_option autoImplicit false

namespace Stencil.Render

open Walk

variable {ω ε ν α β : Type}

variable {host : Host ω ε ν} {graph : Graph ν}

/-! ## Visits that include nothing -/

/-- An action made of lookups and writes, that can fail for a list whose items cannot be had. -/
inductive Plain (host : Host ω ε ν) : {α : Type} → Action ω ε α → Prop
  | pure {α : Type} (answer : α) : Plain host (pure answer)
  | item {α : Type} (error : NumeralError) : Plain host (throw (.item error) : Action ω ε α)
  | lookup (name : String) : Plain host (lift (host.context.lookup name))
  | write (text : String) : Plain host (lift (host.write text))
  | bind {α β : Type} {first : Action ω ε α} {next : α → Action ω ε β} (hf : Plain host first)
    (hn : ∀ answer, Plain host (next answer)) : Plain host (first >>= next)

theorem plain_substitute (host : Host ω ε ν) (name : String) (escape : Bool) :
    Plain host (substitute host name escape) := by
  unfold substitute
  split
  · exact .pure ()
  · refine .bind (.lookup name) fun found => ?_
    cases found with
    | none => exact .pure ()
    | some value => exact .write _

theorem plain_plan (host : Host ω ε ν) (name : String) : Plain host (plan host name) :=
  .bind (.lookup name) fun _ => .pure _

theorem plain_visit (options : RenderOptions) (host : Host ω ε ν) (graph : Graph ν) {node : Node}
    (hn : node.label.Lacks .inclusion) (depth : Int) :
    Plain host (visit options host graph node depth) := by
  unfold visit
  split
  · exact .pure _
  · exact .bind (.write _) fun _ => .pure _
  · next tag hl =>
    split
    · exact .bind (plain_substitute host _ _) fun _ => .pure _
    · exact .bind (plain_substitute host _ _) fun _ => .pure _
    · refine .bind (plain_plan host _) fun plan => ?_
      split
      · exact .pure _
      · exact .item _
    · exact .bind (plain_plan host _) fun _ => .pure _
    · next ht => exact absurd ht (hn tag hl)
    all_goals exact .pure _

theorem Plain.cache_eq {action : Action ω ε α} (h : Plain host action) (pass : Pass ω) :
    (stateOf (action pass)).cache = pass.cache := by
  induction h generalizing pass with
  | pure | item => rfl
  | lookup | write => rw [stateOf_lift]
  | @bind α β first next _ _ ihf ihn =>
    have hf := ihf pass
    simp only [Bind.bind, EStateM.bind]
    cases hr : first pass with
    | ok answer between =>
      rw [hr] at hf
      exact (ihn answer between).trans hf
    | error error between =>
      rw [hr] at hf
      exact hf

/-- The error comes of a number that is not written or not read. -/
def Numeric (seat : host.Seat graph) (error : RenderError ε) : Prop :=
  ∃ numeral : NumeralError, error = .item numeral ∨ error = .host (seat.embed (.numeral numeral))

theorem Plain.numeric (seat : host.Seat graph)
    (hw : ∀ text world, ∃ after, host.write text world = .ok () after) {action : Action ω ε α}
    (h : Plain host action) {pass after : Pass ω} {error : RenderError ε}
    (he : action pass = .error error after) : Numeric seat error := by
  induction h generalizing pass after error with
  | pure => cases he
  | item numeral =>
    cases he
    exact ⟨numeral, .inl rfl⟩
  | lookup name =>
    rw [lookup_of_seat seat] at he
    cases hl : (seat.get pass.world).lookup graph name with
    | ok found =>
      rw [hl] at he
      cases he
    | error numeral =>
      rw [hl] at he
      cases he
      exact ⟨numeral, .inr rfl⟩
  | write text =>
    obtain ⟨world, hwrite⟩ := hw text pass.world
    rw [lift_of_ok hwrite] at he
    cases he
  | @bind α β first next _ _ ihf ihn =>
    simp only [Bind.bind, EStateM.bind] at he
    cases hr : first pass with
    | ok answer between =>
      rw [hr] at he
      exact ihn answer he
    | error other between =>
      rw [hr] at he
      obtain ⟨rfl, rfl⟩ := EStateM.Result.error.inj he
      exact ihf hr

/-! ## Partials -/

theorem notes_eq_ok (host : Host ω ε ν) (notices : List Notice) (pass : Pass ω) :
    ∃ after, (notices.forM (note host) : Action ω ε PUnit) pass = .ok ⟨⟩ after ∧
      after.cache = pass.cache := by
  induction notices generalizing pass with
  | nil => exact ⟨pass, rfl, rfl⟩
  | cons notice rest ih => exact ih { pass with world := host.note notice pass.world }

/-- Why it is not settled what a partial is. -/
inductive Unsettled (host : Host ω ε ν) (name : String) (pass : Pass ω) : RenderError ε → Prop
  | load {error : ε} {world : ω} (hl : host.load name pass.world = .error error world) :
    Unsettled host name pass (.host error)
  | defect {source : String} {error : SyntaxError} {world : ω}
    (hl : host.load name pass.world = .ok (some source) world)
    (hs : Template.parse source = .error error) : Unsettled host name pass (.partialSyntax error)

/-- What asking for the document of a partial comes to. -/
inductive Asked (host : Host ω ε ν) (name : String) (pass : Pass ω) :
    EStateM.Result (RenderError ε) (Pass ω) (Option Document) → Prop
  | known {found : Option Document} (hc : pass.cache.lookup name = some found) :
    Asked host name pass (.ok found pass)
  | failed {error : RenderError ε} {after : Pass ω} (hu : Unsettled host name pass error)
    (hc : after.cache = pass.cache) : Asked host name pass (.error error after)
  | missing {after : Pass ω} (hc : after.cache = (name, none) :: pass.cache) :
    Asked host name pass (.ok none after)
  | read {source : String} {known : Document} {world : ω} {after : Pass ω}
    (hl : host.load name pass.world = .ok (some source) world)
    (hs : Template.parse source = .ok known) (hc : after.cache = (name, some known) :: pass.cache) :
    Asked host name pass (.ok (some known) after)

theorem asked (host : Host ω ε ν) (name : String) (pass : Pass ω) :
    Asked host name pass (partialDocument host name pass) := by
  cases hc : pass.cache.lookup name with
  | some found =>
    simp only [partialDocument, bind, EStateM.bind, get_apply, hc]
    exact .known hc
  | none =>
    simp only [partialDocument, bind, EStateM.bind, get_apply, hc]
    cases hl : host.load name pass.world with
    | error cause world =>
      rw [lift_of_error hl]
      exact .failed (.load hl) rfl
    | ok answer world =>
      rw [lift_of_ok hl]
      cases answer with
      | none => exact .missing rfl
      | some source =>
        obtain ⟨noted, hn, hcache⟩ :=
          notes_eq_ok host (Template.read source).notices { pass with world := world }
        simp only [EStateM.bind, hn]
        cases hs : (Template.read source).outcome with
        | error error => exact .failed (.defect hl hs) hcache
        | ok known => exact .read hl hs (congrArg _ hcache)

/-! ## Visits -/

/-- Why the visit of a node fails. -/
inductive Failing (options : RenderOptions) (seat : host.Seat graph) (node : Node) (pass : Pass ω) :
    RenderError ε → Prop
  | number {tag : Tag} {error : RenderError ε} (hl : node.label = .tag tag)
    (hr : tag.Raises graph (seat.get pass.world)) (hn : Numeric seat error) :
    Failing options seat node pass error
  | tooDeep {tag : Tag} (hl : node.label = .tag tag) (ht : tag.type = .inclusion) :
    Failing options seat node pass (.tooDeep tag.name options.inclusionLimit)
  | unsettled {tag : Tag} {error : RenderError ε} (hl : node.label = .tag tag)
    (ht : tag.type = .inclusion) (hu : Unsettled host tag.name pass error) :
    Failing options seat node pass error

theorem failing_of_visit (options : RenderOptions) (seat : host.Seat graph)
    (hw : ∀ text world, ∃ after, host.write text world = .ok () after) {node : Node} {depth : Int}
    {pass after : Pass ω} {error : RenderError ε}
    (h : visit options host graph node depth pass = .error error after) :
    Failing options seat node pass error := by
  -- visits without an inclusion fail only with numbers, and an inclusion has the limit and the loader
  -- besides
  by_cases hn : node.label.Lacks .inclusion
  · obtain ⟨tag, hl, hr⟩ := (throws_visit_iff options seat hw hn).1 ⟨error, after, h⟩
    exact .number hl hr ((plain_visit options host graph hn depth).numeric seat hw h)
  · obtain ⟨tag, hl, ht⟩ : ∃ tag, node.label = .tag tag ∧ tag.type = .inclusion := by
      simpa [Label.Lacks] using hn
    rw [visit_of_inclusion options host graph hl ht] at h
    by_cases hlimit : options.inclusionLimit ≤ pass.inclusions
    · simp only [bind, EStateM.bind, requestPartial_of_le options host depth hlimit] at h
      cases h
      exact .tooDeep hl ht
    · have ha := asked host tag.name pass
      simp only [bind, EStateM.bind, requestPartial_of_lt options host depth hlimit] at h
      cases hp : partialDocument host tag.name pass with
      | ok found after =>
        rw [hp] at h
        cases h
      | error other after =>
        rw [hp] at h ha
        cases h
        cases ha with
        | failed hu => exact .unsettled hl ht hu

/-- A visit adds nothing to the cache but the document of the partial that it includes. -/
theorem mem_cache_of_visit (options : RenderOptions) (host : Host ω ε ν) (graph : Graph ν) (node : Node)
    (depth : Int) (pass : Pass ω) {name : String} {known : Document}
    (h : (name, some known) ∈ (stateOf (visit options host graph node depth pass)).cache) :
    (name, some known) ∈ pass.cache ∨
      ∃ tag source world, node.label = .tag tag ∧ tag.type = .inclusion ∧
        host.load tag.name pass.world = .ok (some source) world ∧
        Template.parse source = .ok known := by
  by_cases hn : node.label.Lacks .inclusion
  · rw [(plain_visit options host graph hn depth).cache_eq] at h
    exact .inl h
  · obtain ⟨tag, hl, ht⟩ : ∃ tag, node.label = .tag tag ∧ tag.type = .inclusion := by
      simpa [Label.Lacks] using hn
    rw [visit_of_inclusion options host graph hl ht, stateOf_bind_pure] at h
    by_cases hlimit : options.inclusionLimit ≤ pass.inclusions
    · rw [requestPartial_of_le options host depth hlimit] at h
      exact .inl h
    · have ha := asked host tag.name pass
      rw [requestPartial_of_lt options host depth hlimit, stateOf_bind_pure] at h
      generalize partialDocument host tag.name pass = result at h ha
      cases ha with
      | known => exact .inl h
      | @failed _ after _ hc =>
        exact .inl (hc ▸ (h : (name, some known) ∈ after.cache))
      | @missing after hc =>
        rcases List.mem_cons.1 (hc ▸ (h : (name, some known) ∈ after.cache)) with heq | h
        · cases heq
        · exact .inl h
      | @read source read world after hload hs hc =>
        rcases List.mem_cons.1 (hc ▸ (h : (name, some known) ∈ after.cache)) with heq | h
        · cases heq
          exact .inr ⟨tag, source, world, hl, ht, hload, hs⟩
        · exact .inl h

theorem cache_enter (host : Host ω ε ν) (hook : Hook ν) (pass : Pass ω) :
    (stateOf (enter host hook pass)).cache = pass.cache := by
  cases hook with
  | inclusion => rfl
  | scope value =>
    simp only [enter]
    cases host.context.scopes with
    | none => rfl
    | some scopes =>
      show (stateOf (lift (scopes.push value) pass)).cache = pass.cache
      rw [stateOf_lift]

theorem cache_leave (host : Host ω ε ν) (hook : Hook ν) (pass : Pass ω) :
    (stateOf (leave host hook pass)).cache = pass.cache := by
  cases hook with
  | inclusion => rfl
  | scope value =>
    simp only [leave]
    cases host.context.scopes with
    | none => rfl
    | some scopes =>
      show (stateOf ((lift scopes.pop >>= fun _ => pure ()) pass)).cache = pass.cache
      rw [stateOf_bind_pure, stateOf_lift]

/-! ## What a walk comes to -/

/-- The property is true of every label in the documents of the cache. -/
def Cached (property : Label → Prop) (cache : Cache) : Prop :=
  ∀ name known, (name, some known) ∈ cache → known.Every property

section Sourced

variable {renderer : Renderer} {document : Document} {world : ω}
  {machine : Machine (Pass ω) (Hook ν)} {property : Label → Prop} {proper : Value ν → Prop}

/-- What is true of the labels of the document, and of those of each partial that a tag of which it is
true includes, is true of all labels that the walk comes to. The scopes on the way are as proper as the
values that they were made from. -/
theorem sourced_of_reaches (seat : host.Seat graph) (hd : document.Every property)
    (hl : ∀ tag, property (.tag tag) → tag.type = .inclusion → ∀ world source after known,
      host.load tag.name world = .ok (some source) after → Template.parse source = .ok known →
      known.Every property)
    (hk : Cached property renderer.cache) (hs : ∀ frame ∈ (seat.get world).frames, proper frame)
    (hc : ∀ stack : ContextStack ν, (∀ frame ∈ stack.frames, proper frame) →
      ∀ name value values, stack.lookup graph name = .ok (some value) →
      sectionScopes graph value = .ok values → ∀ scope ∈ values, proper scope)
    (hr : (visitor renderer.options host graph).Reaches (renderer.start document world) machine) :
    Visitor.Pending (fun node => node.Every property)
      (fun hook => ∀ value, hook = .scope value → proper value) machine := by
  have henter (hook : Hook ν) (pass : Pass ω) (h : Cached property pass.cache) :
      Cached property (stateOf ((visitor renderer.options host graph).enter hook pass)).cache := by
    show Cached property (stateOf (enter host hook pass)).cache
    rwa [cache_enter]
  have hleave (hook : Hook ν) (pass : Pass ω) (h : Cached property pass.cache) :
      Cached property (stateOf ((visitor renderer.options host graph).leave hook pass)).cache := by
    show Cached property (stateOf (leave host hook pass)).cache
    rwa [cache_leave]
  have hstart : Visitor.Pending (fun node => node.Every property)
      (fun hook => ∀ value, hook = .scope value → proper value)
      (renderer.start document world : Machine (Pass ω) (Hook ν)) := Visitor.pending_start hd
  have hempty : Cached property (renderer.start document world : Machine (Pass ω) (Hook ν)).state.cache :=
    hk
  -- two invariants at once: the cache feeds the nodes that wait, and these say what may get into the
  -- cache
  refine (Visitor.pending_and_of_reaches ?_ ?_ henter hleave ?_ hstart hempty hr).1
  · intro node hn
    exact hn.children
  · intro machine _ hpending hknown node depth hat name known hm
    rcases mem_cache_of_visit renderer.options host graph node depth machine.state hm with
      hm | ⟨tag, source, after, hlabel, ht, hload, hs⟩
    · exact hknown name known hm
    · exact hl tag (hlabel ▸ (hpending.at hat).label) ht _ source after known hload hs
  · intro machine hr hpending node depth control requests after hat hv hknown request hm
    have hn := hpending.at hat
    cases requested_of_visit hv request hm with
    | inclusion _ _ _ hcache => exact ⟨hknown _ _ hcache, nofun⟩
    | @body tag value scope values middle _ _ _ hf hsections hscope =>
      refine ⟨hn.children, ?_⟩
      rintro _ ⟨⟩ _ ⟨⟩
      exact hc _ (proper_frames seat hs hr hpending.hooksOf) tag.name value values
        (lookup_eq_of_lift seat hf) hsections scope hscope

end Sourced

/-- A rendering fails with the error of a visit that it comes to. -/
theorem exists_failing {renderer : Renderer} {document : Document} {world : ω}
    (seat : host.Seat graph) (hw : ∀ text world, ∃ after, host.write text world = .ok () after)
    {error : RenderError ε} (h : (renderer.render host graph document world).result = .error error) :
    ∃ machine node depth,
      (visitor renderer.options host graph).Reaches (renderer.start document world) machine ∧
        machine.IsAt node depth ∧ Failing renderer.options seat node machine.state error := by
  have hm := tracks_maintained renderer.options seat (seat.get world)
  have halts := halts renderer.options host graph document.nodes ⟨renderer.cache, 0, world⟩
  obtain ⟨machine, node, depth, after, hr, hat, hv⟩ :=
    (hm.verdict_eq_error_iff (exists_enter seat) (tracks_start renderer seat document world) halts).1
      (Renderer.result_eq_error_iff.1 h)
  exact ⟨machine, node, depth, hr, hat, failing_of_visit renderer.options seat hw hv⟩

end Stencil.Render

import Stencil.Proofs.Render.Action

/-!
# What a visit requests

A visit requests one of two things. A section requests its body, in the scopes that the value of its
name makes. A partial requests the nodes of its document, and by then the document is in the cache
(`requested_of_visit`). The cache only grows, so what was included in a rendering is still there at its
end (`OfHost.mem_cache`).
-/

set_option autoImplicit false

namespace Stencil.Render

open Walk

variable {ω ε ν α : Type} {host : Host ω ε ν} {graph : Graph ν}

/-- What a visit of the node can request if it begins with the one pass and ends with the other. -/
inductive Requested (host : Host ω ε ν) (graph : Graph ν) (node : Node) (pass after : Pass ω) :
    Request (Hook ν) → Prop
  | body {tag : Tag} {value scope : Value ν} {values : List (Value ν)} {middle : Pass ω}
    (depth : Int) (hl : node.label = .tag tag) (ht : tag.type = .sectionBegin)
    (hf : lift (host.context.lookup tag.name) pass = .ok (some value) middle)
    (hs : sectionScopes graph value = .ok values) (hm : scope ∈ values) :
    Requested host graph node pass after ⟨node.children, depth, some (.scope scope)⟩
  | inclusion {tag : Tag} {known : Document} (depth : Int) (hl : node.label = .tag tag)
    (ht : tag.type = .inclusion) (hm : (tag.name, some known) ∈ after.cache) :
    Requested host graph node pass after ⟨known.nodes, depth, some .inclusion⟩

/-! ## Sections -/

theorem eq_some_of_inScopes {isScoped : Bool} {found : Option (Value ν)} {value : Value ν}
    (h : SectionPlan.of isScoped found = .inScopes value) : found = some value := by
  unfold SectionPlan.of at h
  split at h
  · cases h
  · split at h
    · cases h
    · split at h
      · cases h
      · split at h
        · cases h
          rfl
        · cases h
          rfl
        · cases h

theorem exists_of_mem_requests {isScoped : Bool} {found : Option (Value ν)} {node : Node}
    {depth : Int} {control : Control} {requests : List (Request (Hook ν))}
    (h : (SectionPlan.of isScoped found).requests graph node depth = .ok (control, requests)) :
    ∀ request ∈ requests, ∃ value values scope, found = some value ∧
      sectionScopes graph value = .ok values ∧ scope ∈ values ∧
      request = ⟨node.children, depth + 1, some (.scope scope)⟩ := by
  cases hp : SectionPlan.of isScoped found with
  | absent | plain =>
    rw [hp] at h
    cases h
    exact nofun
  | inScopes value =>
    rw [hp, SectionPlan.requests] at h
    cases hs : sectionScopes graph value with
    | error error => simp [hs, Except.map] at h
    | ok values =>
      simp only [hs, Except.map, Except.ok.injEq, Prod.mk.injEq] at h
      obtain ⟨_, rfl⟩ := h
      intro request hr
      obtain ⟨scope, hm, rfl⟩ := List.mem_map.1 hr
      exact ⟨value, values, scope, eq_some_of_inScopes hp, hs, hm, rfl⟩

/-! ## Partials -/

/-- A document that was obtained for a partial is in the cache. -/
theorem mem_cache_of_partialDocument {name : String} {known : Document} {pass after : Pass ω}
    (h : partialDocument host name pass = .ok (some known) after) :
    (name, some known) ∈ after.cache := by
  cases hc : pass.cache.lookup name with
  | some found =>
    simp only [partialDocument, bind, EStateM.bind, get_apply, hc] at h
    cases h
    obtain ⟨before, rest, hcache, _⟩ := List.lookup_eq_some_iff.1 hc
    rw [hcache]
    exact List.mem_append_right _ List.mem_cons_self
  | none =>
    simp only [partialDocument, bind, EStateM.bind, get_apply, hc] at h
    cases hl : lift (host.load name) pass with
    | error error failed => simp [hl] at h
    | ok answer loaded =>
      simp only [hl] at h
      cases answer with
      | none => cases h
      | some source =>
        cases hn : (Template.read source).notices.forM (note host) loaded with
        | error error failed => simp [EStateM.bind, hn] at h
        | ok u noted =>
          simp only [EStateM.bind, hn] at h
          cases ho : (Template.read source).outcome with
          | error error =>
            rw [ho] at h
            cases h
          | ok document =>
            rw [ho] at h
            cases h
            exact List.mem_cons_self

/-- What is in the cache stays there. -/
theorem OfHost.mem_cache {action : Action ω ε α} (h : OfHost host action) {pass : Pass ω}
    {entry : String × Option Document} (hm : entry ∈ pass.cache) :
    entry ∈ (stateOf (action pass)).cache := by
  induction h generalizing pass with
  | pure | throw | note => exact hm
  | lookup | write | load =>
    rw [stateOf_lift]
    exact hm
  | consult _ _ ih => exact ih pass hm
  | remember => exact List.mem_cons_of_mem _ hm
  | @bind α β first next _ _ ihf ihn =>
    have hf := ihf hm
    simp only [Bind.bind, EStateM.bind]
    cases hr : first pass with
    | ok answer after =>
      rw [hr] at hf
      exact ihn answer hf
    | error error after =>
      rw [hr] at hf
      exact hf

theorem mem_cache_visit (options : RenderOptions) (host : Host ω ε ν) (graph : Graph ν) (node : Node)
    (depth : Int) {pass : Pass ω} {entry : String × Option Document} (hm : entry ∈ pass.cache) :
    entry ∈ (stateOf (visit options host graph node depth pass)).cache := by
  obtain ⟨action, ha, heq⟩ := exists_ofHost_visit options host graph node depth pass
  rw [heq]
  exact ha.mem_cache hm

theorem mem_cache_enter (host : Host ω ε ν) (hook : Hook ν) {pass : Pass ω}
    {entry : String × Option Document} (hm : entry ∈ pass.cache) :
    entry ∈ (stateOf (enter host hook pass)).cache := by
  cases hook with
  | inclusion => exact hm
  | scope value =>
    simp only [enter]
    cases host.context.scopes with
    | none => exact hm
    | some scopes =>
      show entry ∈ (stateOf (lift (scopes.push value) pass)).cache
      rw [stateOf_lift]
      exact hm

theorem mem_cache_leave (host : Host ω ε ν) (hook : Hook ν) {pass : Pass ω}
    {entry : String × Option Document} (hm : entry ∈ pass.cache) :
    entry ∈ (stateOf (leave host hook pass)).cache := by
  cases hook with
  | inclusion => exact hm
  | scope value =>
    simp only [leave]
    cases host.context.scopes with
    | none => exact hm
    | some scopes =>
      show entry ∈ (stateOf ((lift scopes.pop >>= fun _ => pure ()) pass)).cache
      rw [stateOf_bind_pure, stateOf_lift]
      exact hm

/-! ## Visits -/

theorem requested_of_visit {options : RenderOptions} {node : Node} {depth : Int}
    {pass after : Pass ω} {control : Control} {requests : List (Request (Hook ν))}
    (h : visit options host graph node depth pass = .ok (control, requests) after) :
    ∀ request ∈ requests, Requested host graph node pass after request := by
  cases hl : node.label with
  | root =>
    simp only [visit, hl] at h
    cases h
    exact List.forall_mem_nil _
  | text content position =>
    simp only [visit, hl] at h
    obtain ⟨_, _, hr⟩ := of_bind_pure h
    cases hr
    exact List.forall_mem_nil _
  | tag tag =>
    cases ht : tag.type with
    | escaped | unescaped | invertedBegin =>
      simp only [visit, hl, ht] at h
      obtain ⟨_, _, hr⟩ := of_bind_pure h
      cases hr
      exact List.forall_mem_nil _
    | invalid | sectionEnd | comment | switch =>
      simp only [visit, hl, ht] at h
      cases h
      exact List.forall_mem_nil _
    | sectionBegin =>
      simp only [visit, hl, ht, plan, bind, EStateM.bind, pure, EStateM.pure] at h
      cases hf : lift (host.context.lookup tag.name) pass with
      | error error failed => simp [hf] at h
      | ok found middle =>
        simp only [hf] at h
        cases hr : (SectionPlan.of host.isScoped found).requests graph node depth with
        | error error =>
          rw [hr] at h
          cases h
        | ok answer =>
          rw [hr] at h
          cases h
          intro request hm
          obtain ⟨value, values, scope, rfl, hs, hscope, rfl⟩ := exists_of_mem_requests hr request hm
          exact .body _ hl ht hf hs hscope
    | inclusion =>
      rw [visit_of_inclusion options host graph hl ht] at h
      obtain ⟨_, hp, hr⟩ := of_bind_pure h
      cases hr
      -- beyond the limit the visit fails, and has asked for nothing
      by_cases hlimit : options.inclusionLimit ≤ pass.inclusions
      · rw [requestPartial_of_le options host depth hlimit] at hp
        cases hp
      · rw [requestPartial_of_lt options host depth hlimit] at hp
        obtain ⟨found, hd, rfl⟩ := of_bind_pure hp
        intro request hm
        cases found with
        | none => cases hm
        | some known =>
          obtain rfl := List.mem_singleton.1 hm
          exact .inclusion _ hl ht (mem_cache_of_partialDocument hd)

end Stencil.Render

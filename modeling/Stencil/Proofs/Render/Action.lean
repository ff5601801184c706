import Stencil.Renderer
import Stencil.Proofs.Walk.Invariant

/-!
# What a visit is made of

A visit of the renderer looks names up, writes, loads and reports, and it reads and extends the cache
of partials. That is all: it does not enter or leave scopes, and apart from the one comparison with
the limit it does not look at the number of inclusions in progress. `OfHost` says so once, as an
inductive predicate on actions, and every fact about "anything that a visit may do" is then one
induction over it instead of one proof for each function of the renderer.

Two such facts are here. What all operations of the host preserve, an action made of them preserves,
also when it fails (`OfHost.preserves`). And the action is blind to the number of inclusions: with
another number in the pass it does the same and leaves that number alone (`OfHost.blind`).
-/

set_option autoImplicit false

namespace Stencil

variable {ω ε ν : Type}

/-- Looking up, writing, loading and reporting keep a property of the world. -/
structure Host.Preserves (host : Host ω ε ν) (property : ω → Prop) : Prop where
  lookup : ∀ name {world}, property world →
    property (Walk.stateOf (host.context.lookup name world))
  write : ∀ text {world}, property world → property (Walk.stateOf (host.write text world))
  load : ∀ name {world}, property world → property (Walk.stateOf (host.load name world))
  note : ∀ notice {world}, property world → property (host.note notice world)

namespace Render

open Walk

/-- An action of a rendering. -/
abbrev Action (ω ε α : Type) := EStateM (RenderError ε) (Pass ω) α

def Pass.count (inclusions : Nat) (pass : Pass ω) : Pass ω := { pass with inclusions := inclusions }

@[simp] theorem world_count (inclusions : Nat) (pass : Pass ω) :
    (pass.count inclusions).world = pass.world := rfl

theorem count_eq_self {inclusions : Nat} {pass : Pass ω} (h : pass.inclusions = inclusions) :
    pass.count inclusions = pass := by
  cases pass
  cases h
  rfl

/-- With another number of inclusions in the pass, the action does the same and leaves that number
alone. -/
def Blind {α : Type} (action : Action ω ε α) : Prop :=
  ∀ pass inclusions, action (pass.count inclusions) =
    withState ((stateOf (action pass)).count inclusions) (action pass)

theorem Blind.inclusions {α : Type} {action : Action ω ε α} (h : Blind action) (pass : Pass ω) :
    (stateOf (action pass)).inclusions = pass.inclusions := by
  have hb := h pass pass.inclusions
  rw [count_eq_self rfl] at hb
  rw [hb]
  cases action pass <;> rfl

theorem blind_bind {α β : Type} {first : Action ω ε α} {next : α → Action ω ε β}
    (hf : Blind first) (hn : ∀ answer, Blind (next answer)) : Blind (first >>= next) := by
  intro pass inclusions
  simp only [bind, EStateM.bind, hf pass inclusions]
  cases first pass with
  | ok answer after => exact hn answer after inclusions
  | error error after => rfl

/-- An action made of what the host offers and of the cache of partials. -/
inductive OfHost (host : Host ω ε ν) : {α : Type} → Action ω ε α → Prop
  | pure {α : Type} (answer : α) : OfHost host (pure answer)
  | throw {α : Type} (error : RenderError ε) : OfHost host (throw error : Action ω ε α)
  | lookup (name : String) : OfHost host (lift (host.context.lookup name))
  | write (text : String) : OfHost host (lift (host.write text))
  | load (name : String) : OfHost host (lift (host.load name))
  | note (notice : Notice) : OfHost host (note host notice)
  | consult {α : Type} {next : Pass ω → Action ω ε α} (hn : ∀ pass, OfHost host (next pass))
    (hc : ∀ pass other, pass.cache = other.cache → next pass = next other) :
    OfHost host (get >>= next)
  | remember (name : String) (found : Option Document) :
    OfHost host (modify fun pass => { pass with cache := (name, found) :: pass.cache })
  | bind {α β : Type} {first : Action ω ε α} {next : α → Action ω ε β}
    (hf : OfHost host first) (hn : ∀ answer, OfHost host (next answer)) :
    OfHost host (first >>= next)

section Facts

variable {host : Host ω ε ν} {α : Type} {action : Action ω ε α}

theorem stateOf_lift (act : EStateM ε ω α) (pass : Pass ω) :
    stateOf (lift act pass) = { pass with world := stateOf (act pass.world) } := by
  simp only [lift, zoom]
  split <;> next h => rw [h]; rfl

theorem lift_of_ok {act : EStateM ε ω α} {pass : Pass ω} {answer : α} {world : ω}
    (h : act pass.world = .ok answer world) :
    lift act pass = .ok answer { pass with world := world } := by
  simp only [lift, zoom, h]

theorem lift_of_error {act : EStateM ε ω α} {pass : Pass ω} {error : ε} {world : ω}
    (h : act pass.world = .error error world) :
    lift act pass = .error (.host error) { pass with world := world } := by
  simp only [lift, zoom, h]

theorem of_lift_ok {act : EStateM ε ω α} {pass after : Pass ω} {answer : α}
    (h : lift act pass = .ok answer after) : act pass.world = .ok answer after.world := by
  cases ha : act pass.world with
  | ok other world =>
    rw [lift_of_ok ha] at h
    cases h
    rfl
  | error cause world =>
    rw [lift_of_error ha] at h
    cases h

/-- What the host fails with is the only error of an operation of the host. -/
theorem of_lift_error {act : EStateM ε ω α} {pass after : Pass ω} {error : RenderError ε}
    (h : lift act pass = .error error after) :
    ∃ cause, error = .host cause ∧ act pass.world = .error cause after.world := by
  cases ha : act pass.world with
  | ok answer world =>
    rw [lift_of_ok ha] at h
    cases h
  | error cause world =>
    rw [lift_of_error ha] at h
    cases h
    exact ⟨cause, rfl, rfl⟩

theorem stateOf_bind_pure {β : Type} (act : Action ω ε α) (f : α → β) (pass : Pass ω) :
    stateOf ((act >>= fun answer => pure (f answer)) pass) = stateOf (act pass) := by
  simp only [bind, EStateM.bind]
  cases act pass <;> rfl

theorem OfHost.preserves {property : ω → Prop} (hp : host.Preserves property)
    (h : OfHost host action) {pass : Pass ω} (hw : property pass.world) :
    property (stateOf (action pass)).world := by
  induction h generalizing pass with
  | pure => exact hw
  | throw => exact hw
  | lookup name =>
    rw [stateOf_lift]
    exact hp.lookup name hw
  | write text =>
    rw [stateOf_lift]
    exact hp.write text hw
  | load name =>
    rw [stateOf_lift]
    exact hp.load name hw
  | note notice => exact hp.note notice hw
  | consult _ _ ih => exact ih pass hw
  | remember => exact hw
  | @bind α β first next _ _ ihf ihn =>
    have hf := ihf hw
    simp only [Bind.bind, EStateM.bind]
    cases hr : first pass with
    | ok answer after =>
      rw [hr] at hf
      exact ihn answer hf
    | error error after =>
      rw [hr] at hf
      exact hf

theorem blind_lift (act : EStateM ε ω α) : Blind (lift act) := by
  intro pass inclusions
  simp only [lift, zoom, world_count]
  cases act pass.world <;> rfl

theorem OfHost.blind (h : OfHost host action) : Blind action := by
  induction h with
  | pure | throw | note | remember => exact fun _ _ => rfl
  | lookup | write | load => exact blind_lift _
  | @consult α next _ hc ih =>
    intro pass inclusions
    -- what comes next depends on the cache alone, and the count is not part of that
    show next (pass.count inclusions) (pass.count inclusions) =
      withState ((stateOf (next pass pass)).count inclusions) (next pass pass)
    rw [hc (pass.count inclusions) pass rfl]
    exact ih pass pass inclusions
  | bind _ _ ihf ihn => exact blind_bind ihf ihn

end Facts

/-! ## The functions of the renderer -/

variable (options : RenderOptions) (host : Host ω ε ν) (graph : Graph ν)

theorem ofHost_notes (notices : List Notice) : OfHost host (notices.forM (note host)) := by
  induction notices with
  | nil => exact .pure ()
  | cons notice rest ih => exact .bind (.note notice) fun _ => ih

theorem ofHost_substitute (name : String) (escape : Bool) :
    OfHost host (substitute host name escape) := by
  unfold substitute
  split
  · exact .pure ()
  · refine .bind (.lookup name) fun found => ?_
    cases found with
    | none => exact .pure ()
    | some value => exact .write _

theorem ofHost_plan (name : String) : OfHost host (plan host name) :=
  .bind (.lookup name) fun _ => .pure _

theorem ofHost_partialDocument (name : String) : OfHost host (partialDocument host name) := by
  refine .consult (fun pass => ?_) fun pass other hc => by rw [hc]
  split
  · exact .pure _
  · refine .bind (.load name) fun source => ?_
    split
    · exact .bind (.note _) fun _ => .bind (.remember name none) fun _ => .pure none
    · refine .bind (ofHost_notes host _) fun _ => ?_
      split
      · exact .throw _
      · next document _ =>
        exact .bind (.remember name (some document)) fun _ =>
          .bind (.note _) fun _ => .pure (some document)

/-- A visit is made of what the host offers, unless it has to look at the number of inclusions. -/
theorem ofHost_visit {node : Node} (depth : Int)
    (hn : ∀ tag, node.label = .tag tag → tag.type ≠ .inclusion) :
    OfHost host (visit options host graph node depth) := by
  unfold visit
  split
  · exact .pure _
  · exact .bind (.write _) fun _ => .pure _
  · next tag hl =>
    split
    · exact .bind (ofHost_substitute host _ _) fun _ => .pure _
    · exact .bind (ofHost_substitute host _ _) fun _ => .pure _
    · refine .bind (ofHost_plan host _) fun plan => ?_
      split
      · exact .pure _
      · exact .throw _
    · exact .bind (ofHost_plan host _) fun _ => .pure _
    -- an inclusion would read the count, which the host does not know of
    · next ht => exact absurd ht (hn tag hl)
    all_goals exact .pure _

/-! ## Partials -/

def inclusionOf (depth : Int) (found : Option Document) : List (Request (Hook ν)) :=
  (found.map fun document => ⟨document.nodes, depth + 1, some .inclusion⟩).toList

theorem requestPartial_of_le {name : String} {pass : Pass ω} (depth : Int)
    (hlimit : options.inclusionLimit ≤ pass.inclusions) :
    requestPartial options host name depth pass =
      .error (.tooDeep name options.inclusionLimit) pass := by
  simp only [requestPartial, bind, EStateM.bind, get_apply, hlimit, if_true]
  rfl

theorem requestPartial_of_lt {name : String} {pass : Pass ω} (depth : Int)
    (hlimit : ¬ options.inclusionLimit ≤ pass.inclusions) :
    requestPartial options host name depth pass =
      (partialDocument host name >>= fun found => pure (inclusionOf depth found)) pass := by
  simp only [requestPartial, bind, EStateM.bind, get_apply, hlimit, if_false]
  cases partialDocument host name pass with
  | ok found after => cases found <;> rfl
  | error error after => rfl

theorem visit_of_inclusion {node : Node} {tag : Tag} (hl : node.label = .tag tag)
    (ht : tag.type = .inclusion) (depth : Int) :
    visit options host graph node depth =
      requestPartial options host tag.name depth >>= fun requests =>
        pure (.proceed, requests) := by
  simp only [visit, hl, ht]

/-- In each pass, a visit does what some action does that is made of what the host offers. Which one
it is depends on the pass by the number of inclusions alone. -/
theorem exists_ofHost_visit (node : Node) (depth : Int) (pass : Pass ω) :
    ∃ action, OfHost host action ∧
      visit options host graph node depth pass = action pass := by
  by_cases hn : ∀ tag, node.label = .tag tag → tag.type ≠ .inclusion
  · exact ⟨_, ofHost_visit options host graph depth hn, rfl⟩
  · obtain ⟨tag, hl, ht⟩ : ∃ tag, node.label = .tag tag ∧ tag.type = .inclusion := by
      simpa using hn
    rw [visit_of_inclusion options host graph hl ht]
    simp only [bind, EStateM.bind]
    -- the comparison with the limit picks one of two actions, and neither of them looks again
    by_cases hlimit : options.inclusionLimit ≤ pass.inclusions
    · refine ⟨_, .throw (.tooDeep tag.name options.inclusionLimit), ?_⟩
      rw [requestPartial_of_le options host depth hlimit]
      rfl
    · refine ⟨_, .bind (.bind (ofHost_partialDocument host tag.name) fun found =>
        .pure (inclusionOf depth found)) fun requests => .pure (.proceed, requests), ?_⟩
      rw [requestPartial_of_lt options host depth hlimit]
      rfl

end Render

theorem Renderer.render_eq_of_ends {renderer : Renderer} {host : Host ω ε ν} {graph : Graph ν}
    {document : Document} {world : ω} {outcome : Walk.Outcome (Render.Pass ω) (RenderError ε)}
    (ends : (Render.visitor renderer.options host graph).Ends (renderer.start document world)
      outcome) :
    renderer.render host graph document world =
      ⟨outcome.verdict.map fun _ => (), { renderer with cache := outcome.state.cache },
        outcome.state.world⟩ := by
  have hrun := Walk.Visitor.run_eq_of_ends
    (Render.halts renderer.options host graph document.nodes _) ends
  rw [Renderer.render]
  exact congrArg (fun outcome : Walk.Outcome (Render.Pass ω) (RenderError ε) =>
    (⟨outcome.verdict.map fun _ => (), { renderer with cache := outcome.state.cache },
      outcome.state.world⟩ : Rendering ω ε)) hrun

/-- A rendering fails with what its walk fails with. -/
theorem Renderer.result_eq_error_iff {renderer : Renderer} {host : Host ω ε ν} {graph : Graph ν}
    {document : Document} {world : ω} {error : RenderError ε} :
    (renderer.render host graph document world).result = .error error ↔
      ((Render.visitor renderer.options host graph).run (renderer.start document world)
        (Render.halts renderer.options host graph document.nodes _)).verdict = .error error := by
  rw [Renderer.render]
  cases ((Render.visitor renderer.options host graph).run (renderer.start document world)
    (Render.halts renderer.options host graph document.nodes _)).verdict with
  | ok ending => simp [Except.map]
  | error other => simp [Except.map]

end Stencil

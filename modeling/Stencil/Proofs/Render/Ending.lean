import Stencil.Proofs.Data.Lookup
import Stencil.Proofs.Render.Frames
import Stencil.Proofs.Render.Requests
import Stencil.Proofs.Render.Twins
import Stencil.Proofs.Walk.Steps

/-!
# How renderings end

A rendering ends, whatever the template, the data and the loader are, and whatever the limit on nested
partials is (`Renderer.render_ends`).

A name that is not found is no reason to end with an error. Over a stack of values, with a sink that
does not fail and without partials, there are two reasons left: a lookup that fails, and a list whose
items cannot all be had (`Tag.Raises`). The rendering succeeds iff it comes to no tag that raises, and
over data in which everything can be written no tag does (`returns_unless_refused`).
-/

set_option autoImplicit false

namespace Stencil

open Walk

variable {ω ε ν α β : Type}

/-- **Rendering ends.** The walk makes no more visits than it takes steps, and it takes finitely many of
these; then it has a verdict, which the rendering returns or raises. -/
theorem Renderer.render_ends (renderer : Renderer) (host : Host ω ε ν) (graph : Graph ν)
    (document : Document) (world : ω) :
    ∃ steps verdict pass events,
      (Render.visitor renderer.options host graph).recorded.runFor steps
          (Visitor.start document.nodes (⟨renderer.cache, 0, world⟩, [])) =
        some ⟨verdict, pass, events⟩ ∧
      visits events ≤ steps ∧
      renderer.render host graph document world =
        ⟨verdict.map fun _ => (), { renderer with cache := pass.cache }, pass.world⟩ := by
  have halts := Render.halts renderer.options host graph document.nodes ⟨renderer.cache, 0, world⟩
  obtain ⟨steps, hrun⟩ := Visitor.exists_runFor_eq_some _ _ halts
  generalize (Render.visitor renderer.options host graph).run _ halts = outcome at hrun
  -- with its events on record the walk takes the same steps
  have hstart : Machine.Alike (fun _ => True) (Eq : Render.Hook ν → Render.Hook ν → Prop)
      (fun state (whole : Render.Pass ω × List (Event (Render.Hook ν))) => state = whole.1)
      (Visitor.start document.nodes ⟨renderer.cache, 0, world⟩)
      (Visitor.start document.nodes (⟨renderer.cache, 0, world⟩, [])) :=
    Visitor.start_alike (fun _ _ => trivial) rfl
  obtain ⟨⟨verdict, pass, events⟩, hrecorded, hverdict, hpass⟩ :=
    (Visitor.simulates_recorded _).runFor hstart hrun
  refine ⟨steps, verdict, pass, events, hrecorded, ?_, ?_⟩
  · have hvisits := Visitor.visits_le_of_runFor hrecorded
    simpa [visits, Visitor.start] using hvisits
  · rw [render_eq_of_ends ⟨steps, hrun⟩, hverdict, hpass]

/-! ## Actions that fail -/

namespace Render

section Throws

/-- The action fails in this pass. -/
def Throws (action : Action ω ε α) (pass : Pass ω) : Prop :=
  ∃ error after, action pass = .error error after

theorem not_throws_pure (answer : α) (pass : Pass ω) :
    ¬ Throws (pure answer : Action ω ε α) pass := nofun

theorem throws_throw (error : RenderError ε) (pass : Pass ω) :
    Throws (throw error : Action ω ε α) pass := ⟨error, pass, rfl⟩

theorem throws_bind_iff {first : Action ω ε α} {next : α → Action ω ε β} {pass : Pass ω} :
    Throws (first >>= next) pass ↔
      Throws first pass ∨ ∃ answer after, first pass = .ok answer after ∧ Throws (next answer) after := by
  simp only [Throws, bind, EStateM.bind]
  cases first pass with
  | error error after => simp
  | ok answer after => simp

theorem throws_bind_pure_iff {first : Action ω ε α} {f : α → β} {pass : Pass ω} :
    Throws (first >>= fun answer => pure (f answer)) pass ↔ Throws first pass := by
  rw [throws_bind_iff, or_iff_left]
  rintro ⟨answer, after, _, h⟩
  exact not_throws_pure (f answer) after h

theorem not_throws_lift {action : EStateM ε ω α} {pass : Pass ω}
    (h : ∃ answer world, action pass.world = .ok answer world) : ¬ Throws (lift action) pass := by
  obtain ⟨answer, world, ha⟩ := h
  rintro ⟨error, after, he⟩
  rw [lift_of_ok ha] at he
  cases he

end Throws

/-! ## Over a stack of values -/

variable {host : Host ω ε ν} {graph : Graph ν}

theorem lookup_of_seat (seat : host.Seat graph) (name : String) (pass : Pass ω) :
    lift (host.context.lookup name) pass =
      match (seat.get pass.world).lookup graph name with
      | .ok found => .ok found (restack seat (seat.get pass.world) pass)
      | .error error =>
        .error (.host (seat.embed (.numeral error))) (restack seat (seat.get pass.world) pass) := by
  rw [seat.context_eq]
  simp only [lift, zoom, Context.zoom, Context.ofStack]
  cases (seat.get pass.world).lookup graph name with
  | ok found => rfl
  | error error => rfl

theorem lookup_eq_of_lift (seat : host.Seat graph) {name : String} {pass after : Pass ω}
    {found : Option (Value ν)} (h : lift (host.context.lookup name) pass = .ok found after) :
    (seat.get pass.world).lookup graph name = .ok found := by
  rw [lookup_of_seat seat] at h
  cases hf : (seat.get pass.world).lookup graph name with
  | error error => simp [hf] at h
  | ok other =>
    simp only [hf, EStateM.Result.ok.injEq] at h
    rw [h.1]

theorem throws_lookup_iff (seat : host.Seat graph) {name : String} {pass : Pass ω} :
    Throws (lift (host.context.lookup name)) pass ↔
      Fails ((seat.get pass.world).lookup graph name) := by
  rw [Throws, lookup_of_seat seat]
  cases (seat.get pass.world).lookup graph name with
  | ok found => exact iff_of_false nofun (not_fails_ok found)
  | error error => exact iff_of_true ⟨_, _, rfl⟩ (fails_error error)

theorem isScoped_of_seat (seat : host.Seat graph) : host.isScoped = true := by
  rw [Host.isScoped, seat.scopes_eq]
  rfl

theorem plan_of_seat (seat : host.Seat graph) (name : String) (pass : Pass ω) :
    plan host name pass =
      match (seat.get pass.world).lookup graph name with
      | .ok found => .ok (.of true found) (restack seat (seat.get pass.world) pass)
      | .error error =>
        .error (.host (seat.embed (.numeral error))) (restack seat (seat.get pass.world) pass) := by
  simp only [plan, bind, EStateM.bind, lookup_of_seat seat, isScoped_of_seat seat]
  cases (seat.get pass.world).lookup graph name with
  | ok found => rfl
  | error error => rfl

end Render

/-- The tag looks its name up. -/
def Tag.Consults (tag : Tag) : Prop :=
  tag.isSectionBegin = true ∨ (tag.type = .escaped ∨ tag.type = .unescaped) ∧ tag.name ≠ ""

/-- With this stack of values, rendering the tag fails: its lookup does, or it begins a section for the
items of a list that cannot all be had. -/
inductive Tag.Raises (graph : Graph ν) (stack : ContextStack ν) (tag : Tag) : Prop
  | lookup (hc : tag.Consults) (hf : Fails (stack.lookup graph tag.name))
  | item {items : List (Datum ν)} {item : Datum ν} (ht : tag.type = .sectionBegin)
    (hl : stack.lookup graph tag.name = .ok (some (.list items))) (hm : item ∈ items)
    (hv : item.Valueless graph)

namespace Render

variable {host : Host ω ε ν} {graph : Graph ν}

theorem throws_substitute_iff (seat : host.Seat graph)
    (hw : ∀ text world, ∃ after, host.write text world = .ok () after) {name : String}
    {escape : Bool} {pass : Pass ω} :
    Throws (substitute host name escape) pass ↔
      name ≠ "" ∧ Fails ((seat.get pass.world).lookup graph name) := by
  unfold substitute
  by_cases hn : name = ""
  · subst hn
    exact iff_of_false (not_throws_pure () pass) fun h => h.1 rfl
  · have hempty : name.isEmpty = false := by simpa using hn
    rw [if_neg (by simp [hempty]), throws_bind_iff, throws_lookup_iff seat]
    constructor
    · rintro (hf | ⟨found, after, _, ht⟩)
      · exact ⟨hn, hf⟩
      · cases found with
        | none => exact absurd ht (not_throws_pure () after)
        | some value =>
          obtain ⟨written, hwrite⟩ := hw (substitution escape value) after.world
          exact absurd ht (not_throws_lift ⟨(), written, hwrite⟩)
    · rintro ⟨_, hf⟩
      exact .inl hf

/-- Only the items of a list can fail to be had when a section is requested. -/
theorem requests_fails_iff {found : Option (Value ν)} (node : Node) (depth : Int) :
    Fails ((SectionPlan.of true found).requests graph node depth) ↔
      ∃ items, found = some (.list items) ∧ ∃ item ∈ items, item.Valueless graph := by
  cases found with
  | none => exact iff_of_false (not_fails_ok _) (by simp)
  | some value =>
    -- of what is true only a list is made into scopes item by item
    by_cases ht : value.isTruthy = true
    · cases value with
      | text content =>
        simp only [SectionPlan.of, ht]
        exact iff_of_false (not_fails_ok _) (by simp)
      | bool flag =>
        simp only [SectionPlan.of, ht]
        exact iff_of_false (not_fails_ok _) (by simp)
      | object fields => exact iff_of_false (not_fails_ok _) (by simp)
      | list items =>
        simp only [SectionPlan.of, ht, Bool.not_true, Bool.false_eq_true, if_false,
          SectionPlan.requests, sectionScopes, fails_map_iff, items_fails_iff]
        constructor
        · intro h
          exact ⟨items, rfl, h⟩
        · rintro ⟨_, heq, h⟩
          cases heq
          exact h
    · -- what is not true is not looked into, and a list that is not true has no items
      simp only [SectionPlan.of, ht, Bool.not_true, Bool.not_false, Bool.false_eq_true, if_false,
        if_true]
      refine iff_of_false (not_fails_ok _) ?_
      rintro ⟨items, heq, item, hm, _⟩
      cases heq
      simp [Value.isTruthy] at ht
      subst ht
      cases hm

theorem raises_variable_iff {stack : ContextStack ν} {tag : Tag}
    (ht : tag.type = .escaped ∨ tag.type = .unescaped) :
    tag.Raises graph stack ↔ tag.name ≠ "" ∧ Fails (stack.lookup graph tag.name) := by
  constructor
  · rintro (⟨hbegin | ⟨_, hname⟩, hf⟩ | ⟨hbegin, _⟩)
    · rcases ht with ht | ht <;> simp [Tag.isSectionBegin, ht] at hbegin
    · exact ⟨hname, hf⟩
    · rcases ht with ht | ht <;> simp [ht] at hbegin
  · rintro ⟨hname, hf⟩
    exact .lookup (.inr ⟨ht, hname⟩) hf

theorem raises_section_iff {stack : ContextStack ν} {tag : Tag} (ht : tag.type = .sectionBegin) :
    tag.Raises graph stack ↔ Fails (stack.lookup graph tag.name) ∨
      ∃ items, stack.lookup graph tag.name = .ok (some (.list items)) ∧
        ∃ item ∈ items, item.Valueless graph := by
  have hc : tag.Consults := .inl (by simp [Tag.isSectionBegin, ht])
  constructor
  · rintro (⟨_, hf⟩ | ⟨_, hl, hm, hv⟩)
    · exact .inl hf
    · exact .inr ⟨_, hl, _, hm, hv⟩
  · rintro (hf | ⟨items, hl, item, hm, hv⟩)
    · exact .lookup hc hf
    · exact .item ht hl hm hv

theorem raises_inverted_iff {stack : ContextStack ν} {tag : Tag} (ht : tag.type = .invertedBegin) :
    tag.Raises graph stack ↔ Fails (stack.lookup graph tag.name) := by
  constructor
  · rintro (⟨_, hf⟩ | ⟨hbegin, _⟩)
    · exact hf
    · simp [ht] at hbegin
  · intro hf
    exact .lookup (.inl (by simp [Tag.isSectionBegin, ht])) hf

/-- Other tags do not look anything up. -/
theorem not_raises {stack : ContextStack ν} {tag : Tag} (hv : tag.type ≠ .escaped)
    (hu : tag.type ≠ .unescaped) (hb : tag.type ≠ .sectionBegin) (hi : tag.type ≠ .invertedBegin) :
    ¬ tag.Raises graph stack := by
  rintro (⟨hbegin | ⟨ht, _⟩, _⟩ | ⟨hbegin, _⟩)
  · simp [Tag.isSectionBegin, hb, hi] at hbegin
  · rcases ht with ht | ht
    · exact hv ht
    · exact hu ht
  · exact hb hbegin

/-- A section fails with its lookup or with its items. -/
theorem throws_section_iff (seat : host.Seat graph) {name : String} {node : Node} {depth : Int}
    {pass : Pass ω} :
    Throws (do
      match (← plan host name).requests graph node depth with
      | .ok requests => return requests
      | .error error => throw (.item error)) pass ↔
      Fails ((seat.get pass.world).lookup graph name) ∨
        ∃ items, (seat.get pass.world).lookup graph name = .ok (some (.list items)) ∧
          ∃ item ∈ items, item.Valueless graph := by
  have hplan : Throws (plan host name) pass ↔ Fails ((seat.get pass.world).lookup graph name) :=
    throws_bind_pure_iff.trans (throws_lookup_iff seat)
  rw [throws_bind_iff, hplan, plan_of_seat seat]
  refine or_congr_right ?_
  -- if the lookup fails, it has given no items, and the second reason is empty
  cases (seat.get pass.world).lookup graph name with
  | error error =>
    refine iff_of_false ?_ nofun
    rintro ⟨_, _, h, _⟩
    cases h
  | ok found =>
    simp only [Except.ok.injEq]
    rw [← requests_fails_iff node depth]
    cases hr : (SectionPlan.of true found).requests graph node depth with
    | ok requests =>
      refine iff_of_false ?_ (not_fails_ok requests)
      rintro ⟨_, _, heq, ht⟩
      cases heq
      rw [hr] at ht
      exact not_throws_pure requests _ ht
    | error error =>
      refine iff_of_true ⟨_, _, rfl, ?_⟩ (fails_error error)
      rw [hr]
      exact throws_throw _ _

/-- A visit fails iff it is of a tag that raises. -/
theorem throws_visit_iff (options : RenderOptions) (seat : host.Seat graph)
    (hw : ∀ text world, ∃ after, host.write text world = .ok () after) {node : Node}
    (hn : node.label.Lacks .inclusion) {depth : Int} {pass : Pass ω} :
    Throws (visit options host graph node depth) pass ↔
      ∃ tag, node.label = .tag tag ∧ tag.Raises graph (seat.get pass.world) := by
  cases hl : node.label with
  | root =>
    simp only [visit, hl]
    exact iff_of_false (not_throws_pure _ pass) (by simp)
  | text content position =>
    simp only [visit, hl]
    refine iff_of_false ?_ (by simp)
    rw [throws_bind_pure_iff]
    obtain ⟨written, hwrite⟩ := hw content pass.world
    exact not_throws_lift ⟨(), written, hwrite⟩
  | tag tag =>
    have hraises : (∃ other, Label.tag tag = .tag other ∧ other.Raises graph (seat.get pass.world)) ↔
        tag.Raises graph (seat.get pass.world) := by simp
    rw [hraises]
    cases ht : tag.type with
    | escaped =>
      simp only [visit, hl, ht]
      rw [raises_variable_iff (.inl ht)]
      exact throws_bind_pure_iff.trans (throws_substitute_iff seat hw)
    | unescaped =>
      simp only [visit, hl, ht]
      rw [raises_variable_iff (.inr ht)]
      exact throws_bind_pure_iff.trans (throws_substitute_iff seat hw)
    | sectionBegin =>
      simp only [visit, hl, ht]
      rw [raises_section_iff ht]
      exact throws_section_iff seat
    | invertedBegin =>
      simp only [visit, hl, ht]
      rw [raises_inverted_iff ht]
      exact throws_bind_pure_iff.trans (throws_bind_pure_iff.trans (throws_lookup_iff seat))
    | inclusion => exact absurd ht (hn tag hl)
    | invalid | sectionEnd | comment | switch =>
      simp only [visit, hl, ht]
      refine iff_of_false (not_throws_pure _ pass) ?_
      apply not_raises <;> simp [ht]

/-! ## What a walk without partials comes to -/

theorem mem_scopesOf {hooks : List (Hook ν)} {value : Value ν} (h : value ∈ scopesOf hooks) :
    .scope value ∈ hooks := by
  induction hooks with
  | nil => cases h
  | cons hook rest ih =>
    cases hook with
    | inclusion => exact List.mem_cons_of_mem _ (ih h)
    | scope other =>
      rcases List.mem_cons.1 h with rfl | h
      · exact List.mem_cons_self
      · exact List.mem_cons_of_mem _ (ih h)

theorem tracks_start (renderer : Renderer) (seat : host.Seat graph) (document : Document) (world : ω) :
    Tracks seat (seat.get world)
      (hooksOf (renderer.start document world : Machine (Pass ω) (Hook ν)).frames)
      (renderer.start document world : Machine (Pass ω) (Hook ν)).state := ⟨rfl, rfl⟩

variable {renderer : Renderer} {document : Document} {world : ω}

section Pending

variable (seat : host.Seat graph) {property : Label → Prop} {proper : Value ν → Prop}
  {machine : Machine (Pass ω) (Hook ν)}

/-- If the scopes on the stack of frames are proper, the stack of values holds nothing else. -/
theorem proper_frames (hs : ∀ frame ∈ (seat.get world).frames, proper frame)
    (hr : (visitor renderer.options host graph).Reaches (renderer.start document world) machine)
    (hh : ∀ hook ∈ hooksOf machine.frames, ∀ value, hook = .scope value → proper value) :
    ∀ frame ∈ (seat.get machine.state.world).frames, proper frame := by
  have hm := tracks_maintained renderer.options seat (seat.get world)
  have hstart := tracks_start renderer seat document world
  intro frame hf
  rw [(hm.of_reaches hstart hr).stack] at hf
  simp only [ContextStack.frames, List.append_assoc] at hf
  rcases List.mem_append.1 hf with hscope | hinitial
  · exact hh _ (mem_scopesOf hscope) frame rfl
  · exact hs frame hinitial

/-- Without partials, the nodes that wait are those of the document, and the scopes on the way to them
are as proper as the values that they were made from. -/
theorem pending_document (hd : document.Every (Label.Lacks .inclusion)) (hp : document.Every property)
    (hs : ∀ frame ∈ (seat.get world).frames, proper frame)
    (hc : ∀ stack : ContextStack ν, (∀ frame ∈ stack.frames, proper frame) →
      ∀ name value values, stack.lookup graph name = .ok (some value) →
      sectionScopes graph value = .ok values → ∀ scope ∈ values, proper scope)
    (hr : (visitor renderer.options host graph).Reaches (renderer.start document world) machine) :
    Visitor.Pending (fun node => node.Every (Label.Lacks .inclusion) ∧ node.Every property)
      (fun hook => ∀ value, hook = .scope value → proper value) machine := by
  refine Visitor.pending_of_reaches ?_ ?_ (Visitor.pending_start ?_) hr
  · intro node hn child hm
    exact ⟨hn.1.children child hm, hn.2.children child hm⟩
  · intro machine hr hpending node depth control requests after hat hv request hm
    have hn := hpending.at hat
    cases requested_of_visit hv request hm with
    | inclusion _ hl ht => exact absurd ht (hn.1.label _ hl)
    | @body tag value scope values middle _ _ _ hf hsections hscope =>
      refine ⟨?_, ?_⟩
      · intro other hother
        exact ⟨hn.1.children other hother, hn.2.children other hother⟩
      · rintro _ ⟨⟩ _ ⟨⟩
        -- the stack of the moment is made of the frames from before and of open scopes, both of them
        -- proper
        exact hc _ (proper_frames seat hs hr hpending.hooksOf) tag.name value values
          (lookup_eq_of_lift seat hf) hsections scope hscope
  · intro node hm
    exact ⟨hd node hm, hp node hm⟩

end Pending

/-! ## Renderings that fail -/

theorem exists_enter (seat : host.Seat graph) {initial : ContextStack ν} {hooks : List (Hook ν)}
    {pass : Pass ω} (hook : Hook ν) (h : Tracks seat initial hooks pass) :
    ∃ entered, enter host hook pass = .ok () entered := by
  cases hook with
  | inclusion => exact ⟨_, rfl⟩
  | scope value =>
    obtain ⟨entered, he, _⟩ := tracks_enter_scope seat value h
    exact ⟨entered, he⟩

/-- A rendering without partials fails iff it comes to a tag that raises. -/
theorem render_fails_iff (seat : host.Seat graph)
    (hw : ∀ text world, ∃ after, host.write text world = .ok () after)
    (hd : document.Every (Label.Lacks .inclusion)) :
    Fails (renderer.render host graph document world).result ↔
      ∃ machine node depth tag,
        (visitor renderer.options host graph).Reaches (renderer.start document world) machine ∧
          machine.IsAt node depth ∧ node.label = .tag tag ∧
          tag.Raises graph (seat.get machine.state.world) := by
  have hm := tracks_maintained renderer.options seat (seat.get world)
  have hstart := tracks_start renderer seat document world
  have halts := halts renderer.options host graph document.nodes ⟨renderer.cache, 0, world⟩
  -- the labels that the walk comes to are those of the document
  have hlabel {machine : Machine (Pass ω) (Hook ν)} {node : Node} {depth : Int}
      (hr : (visitor renderer.options host graph).Reaches (renderer.start document world) machine)
      (hat : machine.IsAt node depth) : node.label.Lacks .inclusion :=
    ((pending_document seat hd hd (fun _ _ => trivial) (fun _ _ _ _ _ _ _ _ _ => trivial) hr).at
      hat).1.label
  refine (fails_map_iff fun _ => ()).trans ?_
  constructor
  · rintro ⟨error, hverdict⟩
    obtain ⟨machine, node, depth, after, hr, hat, hv⟩ :=
      (hm.verdict_eq_error_iff (exists_enter seat) hstart halts).1 hverdict
    obtain ⟨tag, hl, hraises⟩ :=
      (throws_visit_iff renderer.options seat hw (hlabel hr hat)).1 ⟨error, after, hv⟩
    exact ⟨machine, node, depth, tag, hr, hat, hl, hraises⟩
  · rintro ⟨machine, node, depth, tag, hr, hat, hl, hraises⟩
    obtain ⟨error, after, hv⟩ :=
      (throws_visit_iff renderer.options seat hw (hlabel hr hat)).2 ⟨tag, hl, hraises⟩
    refine ⟨error, ?_⟩
    exact (hm.verdict_eq_error_iff (exists_enter seat) hstart halts).2
      ⟨machine, node, depth, after, hr, hat, hv⟩

/-! ## Over data in which everything can be written -/

theorem written_of_sectionScopes (hg : graph.Written) {value : Value ν} (hw : value.Written graph)
    {values : List (Value ν)} (h : sectionScopes graph value = .ok values) :
    ∀ scope ∈ values, scope.Written graph := by
  unfold sectionScopes at h
  split at h
  · exact written_of_items hg h
  · cases h
    intro scope hm
    obtain rfl := List.mem_singleton.1 hm
    exact hw

/-- Where everything can be written and every position is a numeral, no tag raises. -/
theorem not_raises_of_written (hg : graph.Written) {stack : ContextStack ν}
    (hs : ∀ frame ∈ stack.frames, frame.Written graph) {tag : Tag} (hn : Numbered tag.name) :
    ¬ tag.Raises graph stack := by
  intro h
  cases h with
  | lookup _ hf => exact not_fails_iff.2 (ContextStack.exists_lookup_eq_ok hg hs hn) hf
  | item _ hl hm hv => exact ContextStack.written_of_lookup hg hs hl _ hm hv

theorem not_fails_of_written (seat : host.Seat graph)
    (hw : ∀ text world, ∃ after, host.write text world = .ok () after)
    (hd : document.Every (Label.Lacks .inclusion)) (hg : graph.Written)
    (hs : ∀ frame ∈ (seat.get world).frames, frame.Written graph)
    (hn : document.Every fun label => ∀ tag, label = .tag tag → Numbered tag.name) :
    ¬ Fails (renderer.render host graph document world).result := by
  rw [render_fails_iff seat hw hd]
  rintro ⟨machine, node, depth, tag, hr, hat, hl, hraises⟩
  have hpending := pending_document seat hd hn hs
    (fun stack hframes name value values hlookup hsections =>
      written_of_sectionScopes hg (ContextStack.written_of_lookup hg hframes hlookup) hsections) hr
  have hnode := hpending.at hat
  exact not_raises_of_written hg (proper_frames seat hs hr hpending.hooksOf)
    (hnode.2.label tag hl) hraises

end Render

namespace Renderer

open Render

/-- **What is missing is no error.** A lookup returns unless it asks a value that refuses. Without
partials, and with a sink that does not fail, a rendering over a stack of values returns unless it comes
to a tag that raises; over data in which everything can be written, by names whose positions are
numerals, it always returns. -/
theorem returns_unless_refused {host : Host ω ε ν} {graph : Graph ν} (renderer : Renderer)
    (seat : host.Seat graph) (hw : ∀ text world, ∃ after, host.write text world = .ok () after)
    {document : Document} (hd : document.Every (Label.Lacks .inclusion)) (world : ω) :
    (∀ (stack : ContextStack ν) (name : String),
      (∃ found, stack.lookup graph name = .ok found) ↔
        (name = "." ∨ ∀ value part rest, stack.Asks graph name value part rest →
          ¬ value.Refuses graph part)) ∧
    ((renderer.render host graph document world).result = .ok () ↔
      ∀ machine node depth tag,
        (visitor renderer.options host graph).Reaches (renderer.start document world) machine →
        machine.IsAt node depth → node.label = .tag tag →
        ¬ tag.Raises graph (seat.get machine.state.world)) ∧
    (graph.Written → (∀ frame ∈ (seat.get world).frames, frame.Written graph) →
      (document.Every fun label => ∀ tag, label = .tag tag → Numbered tag.name) →
      (renderer.render host graph document world).result = .ok ()) := by
  have hok : (renderer.render host graph document world).result = .ok () ↔
      ¬ Fails (renderer.render host graph document world).result := by
    rw [not_fails_iff]
    constructor
    · intro h
      exact ⟨(), h⟩
    · rintro ⟨_, h⟩
      exact h
  refine ⟨?_, ?_, ?_⟩
  · intro stack name
    rw [← not_fails_iff, ContextStack.lookup_fails_iff, not_and_or, not_not]
    simp only [not_exists, not_and]
  · rw [hok, render_fails_iff seat hw hd]
    simp only [not_exists, not_and]
  · intro hg hs hn
    exact hok.2 (not_fails_of_written seat hw hd hg hs hn)

/-- A section for the items of a list, with names in it that lead nowhere. -/
def missingDocument : Document :=
  ⟨[⟨.tag ⟨"0", .sectionBegin, 0⟩,
    [⟨.tag ⟨"7.b", .escaped, 6⟩, []⟩, ⟨.tag ⟨"c", .escaped, 13⟩, []⟩]⟩], ""⟩

/-- A list of itself and a text. -/
def knotGraph : Graph Unit := fun _ => .list [.container (), .scalar (.text "x")]

def knotStage : Stage (ContextStack Unit) :=
  { context := ⟨.list [.container (), .scalar (.text "x")], []⟩ }

/-- The items of the list are rendered, and nothing is written for what they do not have. -/
theorem returns_unless_refused_missing :
    (({} : Renderer).render (Stage.host (.ofStack knotGraph) .empty) knotGraph missingDocument
      knotStage).result = .ok () := by
  have hd : missingDocument.Every (Label.Lacks .inclusion) := by
    refine List.forall_mem_singleton.2 (.intro ?_ (List.forall_mem_cons.2 ⟨.intro ?_ nofun,
      List.forall_mem_singleton.2 (.intro ?_ nofun)⟩))
    all_goals
      rintro _ ⟨⟩
      simp
  have hn : missingDocument.Every fun label => ∀ tag, label = .tag tag → Numbered tag.name := by
    refine List.forall_mem_singleton.2 (.intro ?_ (List.forall_mem_cons.2 ⟨.intro ?_ nofun,
      List.forall_mem_singleton.2 (.intro ?_ nofun)⟩))
    all_goals
      rintro _ ⟨⟩
      decide
  -- the list has itself for an item, so its data are endless, but each item is a value by itself
  have hdata : ∀ item ∈ [Datum.container (), .scalar (.text "x")], ¬ item.Valueless knotGraph := by
    intro item hm h
    cases h with
    | scalar h =>
      simp at hm
      subst hm
      exact h
    | set hc => cases hc
  have hg : knotGraph.Written := fun _ => hdata
  have hs : ∀ frame ∈ knotStage.context.frames, frame.Written knotGraph :=
    List.forall_mem_singleton.2 hdata
  exact (({} : Renderer).returns_unless_refused (Stage.seat knotGraph .empty)
    (fun text world => ⟨_, rfl⟩) hd knotStage).2.2 hg hs hn

end Renderer

end Stencil

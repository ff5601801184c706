import Stencil.Proofs.Render.Session

/-!
# Partials in place

A partial means its text in place: a tag that includes it can be replaced by the nodes of its document,
and the rendering stays what it was. `Inlined` relates nodes to what they become when this is done to
some of the tags in them, anywhere, and again to tags in what has taken the place of others.

The rendering with the partial in place is one inclusion further from the limit while it is there, and
it may ask for the partial later or not at all. So the comparison is between two recursions at two
depths, in which the second has at least as much room for inclusions as the first, and with two caches.
It says nothing once the first rendering gives up on a partial that is nested too deep (`Follows`): the
second may have room to go on. The rest is done alike, and `Follows` is closed under all that the
recursion is made of.

The induction is the one of the recursion itself, on the room that the first rendering has left and on
the number of nodes: a tag that is replaced leads from an inclusion of the first rendering to more of
the same nodes in the second.
-/

set_option autoImplicit false

namespace Stencil

open Walk

variable {ω τ ε ν μ α β γ δ : Type}

/-! ## Nodes with partials in place -/

/-- The second nodes are the first with partials in place: some of the tags that include a partial, and
have nothing under them, have made way for the nodes of the document that is given for its name. -/
inductive Inlined (given : String → Document → Prop) : List Node → List Node → Prop
  | nil : Inlined given [] []
  | keep (label : Label) {children replaced rest others : List Node}
    (hc : Inlined given children replaced) (hr : Inlined given rest others) :
    Inlined given (⟨label, children⟩ :: rest) (⟨label, replaced⟩ :: others)
  | inline {tag : Tag} {document : Document} {body rest others : List Node}
    (ht : tag.type = .inclusion) (hg : given tag.name document)
    (hb : Inlined given document.nodes body) (hr : Inlined given rest others) :
    Inlined given (⟨.tag tag, []⟩ :: rest) (body ++ others)

/-- All tags may stay. -/
theorem inlined_refl (given : String → Document → Prop) (nodes : List Node) :
    Inlined given nodes nodes := by
  match nodes with
  | [] => exact .nil
  | ⟨label, children⟩ :: rest =>
    exact .keep label (inlined_refl given children) (inlined_refl given rest)

namespace Render

/-! ## Unless the first gives up -/

/-- The rendering ended at a partial that is nested too deep. -/
def GivesUp (result : EStateM.Result (RenderError ε) (Pass ω) α) : Prop :=
  ∃ name limit after, result = .error (.tooDeep name limit) after

/-- Unless the first action gives up, the second ends as it does. -/
def Follows (level : Nat → ω → Prop) (passes : Pass ω → Pass τ → Prop) (answers : α → β → Prop)
    (action : Action ω ε α) (other : Action τ ε β) : Prop :=
  ∀ n pass beside, level n pass.world → passes pass beside →
    GivesUp (action pass) ∨ Alike answers passes (action pass) (other beside)

section Follows

variable {level : Nat → ω → Prop} {passes : Pass ω → Pass τ → Prop} {answers : α → β → Prop}
  {results : γ → δ → Prop}

theorem follows_of_matches {action : Action ω ε α} {other : Action τ ε β}
    (h : Matches answers passes action other) : Follows level passes answers action other :=
  fun _ pass beside _ hp => .inr (h pass beside hp)

theorem follows_pure {answer : α} {reply : β} (h : answers answer reply) :
    Follows level passes answers (pure answer : Action ω ε α) (pure reply) :=
  follows_of_matches (matches_pure h)

/-- Whatever the second does, it follows an action that gives up. -/
theorem follows_tooDeep (name : String) (limit : Int) (other : Action τ ε β) :
    Follows level passes answers (throw (.tooDeep name limit) : Action ω ε α) other :=
  fun _ pass _ _ _ => .inl ⟨name, limit, pass, rfl⟩

theorem Follows.bind {action : Action ω ε α} {other : Action τ ε β} {next : α → Action ω ε γ}
    {following : β → Action τ ε δ} (hk : KeepsLevels level action)
    (hf : Follows level passes answers action other)
    (hn : ∀ answer reply, answers answer reply →
      Follows level passes results (next answer) (following reply)) :
    Follows level passes results (action >>= next) (other >>= following) := by
  intro n pass beside hlevel hp
  have hkeeps := hk n pass hlevel
  simp only [Bind.bind, EStateM.bind]
  rcases hf n pass beside hlevel hp with ⟨name, limit, after, hdeep⟩ | halike
  · rw [hdeep]
    exact .inl ⟨name, limit, after, rfl⟩
  · rcases halike.exists_eq with
      ⟨answer, after, reply, around, ha, hb, hr, hs⟩ | ⟨error, _, _, ha, hb, hs⟩
    · rw [ha] at hkeeps
      rw [ha, hb]
      exact hn answer reply hr n after around hkeeps hs
    · rw [ha, hb]
      exact .inr (.error hs)

theorem Follows.andThen {first next : Action ω ε Unit} {other following : Action τ ε Unit}
    (hk : KeepsLevels level first) (hf : Follows level passes Eq first other)
    (hn : Follows level passes Eq next following) :
    Follows level passes Eq (first >>= fun _ => next) (other >>= fun _ => following) :=
  hf.bind hk fun _ _ _ => hn

end Follows

theorem givesUp_withState {left : Pass ω} {result : EStateM.Result (RenderError ε) (Pass ω) α}
    (h : GivesUp result) : GivesUp (withState left result) := by
  obtain ⟨name, limit, after, rfl⟩ := h
  exact ⟨name, limit, left, rfl⟩

/-! ## Scopes -/

section Scopes

variable {host : Host ω ε ν} {other : Host τ ε μ} {level : Nat → ω → Prop}
  {values : Value ν → Value μ → Prop} {passes : Pass ω → Pass τ → Prop}
  {graph : Graph ν} {graph' : Graph μ} {names : Set String} {fit : Label → Prop}
  {body : Action ω ε Unit} {twin : Action τ ε Unit}

theorem follows_inScope (ht : Twins host other fit values passes) (hl : host.Levels level)
    {scopes : Scopes ω ε ν} (hs : host.context.scopes = some scopes) {besides : Scopes τ ε μ}
    (hs' : other.context.scopes = some besides) (hk : KeepsLevels level body)
    (hb : Follows level passes Eq body twin) {value : Value ν} {beside : Value μ}
    (hv : values value beside) :
    Follows level passes Eq (Direct.inScope scopes value body)
      (Direct.inScope besides beside twin) := by
  intro n pass around hn hp
  have henter := ht.enter (.scope hv) pass around hp
  rw [inScope_eq hs']
  simp only [bind, EStateM.bind]
  rcases inScope_cases hl hs hk value hn with
    ⟨error, after, he, heq, _⟩ | ⟨entered, left, he, hleave, heq, hentered, _⟩
  · -- a scope that the first cannot enter, the second cannot enter either
    rw [he] at henter
    obtain ⟨reached, hr, hpasses⟩ := henter.exists_error
    rw [heq, hr]
    exact .inr (.error hpasses)
  · rw [he] at henter
    obtain ⟨_, reached, hr, _, hpasses⟩ := henter.exists_ok
    rw [heq, hr]
    rcases hb (n + 1) entered reached hentered hpasses with hdeep | halike
    · exact .inl (givesUp_withState hdeep)
    · -- both bodies are over, and as the first scope can be left, so can the second
      have hgone := ht.leave (.scope hv) _ _ halike.stateOf
      rw [hleave] at hgone
      obtain ⟨_, gone, hr', _, hgone⟩ := hgone.exists_ok
      show _ ∨ Alike Eq passes _ (Direct.guarded twin _ reached)
      rw [guarded_of_ok hr']
      exact .inr (halike.withState hgone)

theorem follows_inScopes (ht : Twins host other fit values passes) (hl : host.Levels level)
    {scopes : Scopes ω ε ν} (hs : host.context.scopes = some scopes) {besides : Scopes τ ε μ}
    (hs' : other.context.scopes = some besides) (hk : KeepsLevels level body)
    (hb : Follows level passes Eq body twin) {items : List (Value ν)} {others : List (Value μ)}
    (hi : List.Forall₂ values items others) :
    Follows level passes Eq (Direct.inScopes scopes body items)
      (Direct.inScopes besides twin others) := by
  induction hi with
  | nil => exact follows_pure rfl
  | @cons value beside rest more hv _ ih =>
    have hfirst := follows_inScope ht hl hs hs' hk hb hv
    exact hfirst.andThen (keepsLevels_inScope hl hs hk value) ih

theorem follows_sectionOver (ht : Twins host other fit values passes)
    (ha : Admissible graph graph' names values) (hl : host.Levels level)
    (hk : KeepsLevels level body) (hb : Follows level passes Eq body twin) {value : Value ν}
    {beside : Value μ} (hv : values value beside) :
    Follows level passes Eq (Direct.sectionOver host graph value body)
      (Direct.sectionOver other graph' beside twin) := by
  unfold Direct.sectionOver
  rcases ht.scopes_cases with ⟨hs, hs'⟩ | ⟨scopes, besides, hs, hs', _⟩
  · simp only [hs, hs']
    exact hb
  · simp only [hs, hs', ha.isTruthy_eq hv]
    split
    · rcases ha.cases hv with
        ⟨content, rfl, rfl⟩ | ⟨flag, rfl, rfl⟩ | ⟨_, _, rfl, rfl⟩ | ⟨_, _, rfl, rfl⟩
      · exact hb
      · exact hb
      · rcases (ha.items_agree hv).exists_eq with ⟨_, _, hr, hr', hitems⟩ | ⟨error, hr, hr'⟩
        · simp only [hr, hr']
          exact follows_inScopes ht hl hs hs' hk hb hitems
        · simp only [hr, hr']
          exact follows_of_matches (matches_throw _)
      · exact follows_inScope ht hl hs hs' hk hb hv
    · exact follows_pure rfl

end Scopes

/-! ## All nodes -/

theorem renderAll_append (options : RenderOptions) (host : Host ω ε ν) (graph : Graph ν) (depth : Nat)
    (nodes others : List Node) :
    Direct.renderAll options host graph depth (nodes ++ others) =
      Direct.renderAll options host graph depth nodes >>= fun _ =>
        Direct.renderAll options host graph depth others := by
  induction nodes with
  | nil => simp only [List.nil_append, Direct.renderAll, pure_bind]
  | cons node rest ih => simp only [List.cons_append, Direct.renderAll, ih, bind_assoc]

theorem isMissing_eq {host : Host ω ε ν} {other : Host τ ε μ} {fit : Label → Prop}
    {values : Value ν → Value μ → Prop} {passes : Pass ω → Pass τ → Prop} {graph : Graph ν}
    {graph' : Graph μ} {names : Set String} (ht : Twins host other fit values passes)
    (ha : Admissible graph graph' names values) {found : Option (Value ν)}
    {reply : Option (Value μ)} (hf : Option.Rel values found reply) :
    Direct.isMissing host found = Direct.isMissing other reply := by
  cases hf with
  | none => rfl
  | some hv => simp only [Direct.isMissing_some, ht.isScoped_eq, ha.isTruthy_eq hv]

section Nodes

variable {options others : RenderOptions} {host : Host ω ε ν} {other : Host τ ε μ}
  {level : Nat → ω → Prop} {values : Value ν → Value μ → Prop}
  {passes : Pass ω → Pass τ → Prop} {graph : Graph ν} {graph' : Graph μ} {names : Set String}
  {given : String → Document → Prop} {depth depth' : Nat}

theorem keepsLevels_renderAll (hl : host.Levels level) (nodes : List Node) :
    KeepsLevels level (Direct.renderAll options host graph depth nodes) :=
  (mirrors_renderAll hl depth nodes).keeps

theorem keepsLevels_renderNode (hl : host.Levels level) (node : Node) :
    KeepsLevels level (Direct.renderNode options host graph depth node) := by
  have hanswers : Answers options host graph level depth node (visit options host graph node) _ :=
    answers_renderNode hl (mirrors_renderAll hl depth node.children) fun _ document =>
      mirrors_renderAll hl (depth + 1) document.nodes
  exact hanswers.keeps

/-- A partial that is included on both sides, if the second has no less room than the first. -/
theorem follows_inclusion (ht : Twins host other (fun _ => True) values passes)
    (hl : host.Levels level)
    (hroom : options.inclusionLimit - depth ≤ others.inclusionLimit - depth') {tag : Tag}
    (htype : tag.type = .inclusion) {children replaced : List Node}
    (hc : Follows level passes Eq (Direct.renderAll options host graph depth children)
      (Direct.renderAll others other graph' depth' replaced))
    (hp : depth < options.inclusionLimit → ∀ document : Document,
      Follows level passes Eq (Direct.renderAll options host graph (depth + 1) document.nodes)
        (Direct.renderAll others other graph' (depth' + 1) document.nodes)) :
    Follows level passes Eq (Direct.renderNode options host graph depth ⟨.tag tag, children⟩)
      (Direct.renderNode others other graph' depth' ⟨.tag tag, replaced⟩) := by
  rw [Direct.renderNode, Direct.renderNode]
  simp only [htype, Direct.documentOf_eq_partialDocument]
  by_cases hlimit : options.inclusionLimit ≤ depth
  · rw [dif_pos hlimit]
    exact follows_tooDeep tag.name options.inclusionLimit _
  · have hlimit' : ¬ others.inclusionLimit ≤ depth' := by omega
    rw [dif_neg hlimit, dif_neg hlimit']
    refine (follows_of_matches (ht.partialDocument tag trivial)).bind
      (keepsLevels_ofHost hl (ofHost_partialDocument host tag.name)) fun found reply hfound => ?_
    obtain ⟨rfl, _⟩ := hfound
    refine hc.andThen (keepsLevels_renderAll hl children) ?_
    cases found with
    | none => exact follows_pure rfl
    | some document => exact hp (by omega) document

/-- A node with the same label on both sides, and what is under it on either side. -/
theorem follows_renderNode (ht : Twins host other (fun _ => True) values passes)
    (ha : Admissible graph graph' names values) (hl : host.Levels level)
    (hescape : options.escape = others.escape)
    (hroom : options.inclusionLimit - depth ≤ others.inclusionLimit - depth') (label : Label)
    {children replaced : List Node}
    (hc : Follows level passes Eq (Direct.renderAll options host graph depth children)
      (Direct.renderAll others other graph' depth' replaced))
    (hp : depth < options.inclusionLimit → ∀ document : Document,
      Follows level passes Eq (Direct.renderAll options host graph (depth + 1) document.nodes)
        (Direct.renderAll others other graph' (depth' + 1) document.nodes)) :
    Follows level passes Eq (Direct.renderNode options host graph depth ⟨label, children⟩)
      (Direct.renderNode others other graph' depth' ⟨label, replaced⟩) := by
  cases label with
  | root =>
    rw [Direct.renderNode, Direct.renderNode]
    exact hc
  | text content position =>
    simp only [Direct.renderNode, Direct.ask_eq_lift]
    have hwrite : Follows level passes Eq (lift (host.write content)) (lift (other.write content)) :=
      follows_of_matches (ht.write content)
    exact hwrite.andThen (keepsLevels_ofHost hl (.write content)) hc
  | tag tag =>
    have hsubstitute (escape : Bool) : Follows level passes Eq
        (substitute host tag.name escape >>= fun _ =>
          Direct.renderAll options host graph depth children)
        (substitute other tag.name escape >>= fun _ =>
          Direct.renderAll others other graph' depth' replaced) :=
      (follows_of_matches (ht.substitute ha trivial escape)).andThen
        (keepsLevels_ofHost hl (ofHost_substitute host tag.name escape)) hc
    have hlookup : Follows level passes (Option.Rel values) (lift (host.context.lookup tag.name))
        (lift (other.context.lookup tag.name)) := follows_of_matches (ht.lookup tag trivial)
    have hkeeps : KeepsLevels level (lift (host.context.lookup tag.name)) :=
      keepsLevels_ofHost hl (.lookup tag.name)
    cases htype : tag.type with
    | escaped =>
      simp only [Direct.renderNode, htype, hescape, Direct.renderVariable_eq_substitute]
      exact hsubstitute others.escape
    | unescaped =>
      simp only [Direct.renderNode, htype, Direct.renderVariable_eq_substitute]
      exact hsubstitute false
    | sectionBegin =>
      simp only [Direct.renderNode, htype, Direct.ask_eq_lift]
      refine hlookup.bind hkeeps fun found reply hfound => ?_
      cases hfound with
      | none => exact follows_pure rfl
      | some hv => exact follows_sectionOver ht ha hl (keepsLevels_renderAll hl children) hc hv
    | invertedBegin =>
      simp only [Direct.renderNode, htype, Direct.ask_eq_lift]
      refine hlookup.bind hkeeps fun found reply hfound => ?_
      rw [isMissing_eq ht ha hfound]
      split
      · exact hc
      · exact follows_pure rfl
    -- the only node for which the two limits count
    | inclusion => exact follows_inclusion ht hl hroom htype hc hp
    | comment | sectionEnd | switch | invalid =>
      simp only [Direct.renderNode, htype]
      exact hc

/-- The partial is found, whenever it is asked for, and asking for it leaves the passes together. -/
def Supplies (host : Host ω ε ν) (passes : Pass ω → Pass τ → Prop)
    (given : String → Document → Prop) : Prop :=
  ∀ {name document}, given name document → ∀ {pass beside}, passes pass beside →
    ∃ after, partialDocument host name pass = .ok (some document) after ∧ passes after beside

/-- A tag that includes a partial on one side, and nodes that render as the partial does on the
other. -/
theorem follows_inlined (hl : host.Levels level) (hgiven : Supplies host passes given) {tag : Tag}
    (htype : tag.type = .inclusion) {document : Document} (hg : given tag.name document)
    {twin : Action τ ε Unit}
    (hb : depth < options.inclusionLimit → Follows level passes Eq
      (Direct.renderAll options host graph (depth + 1) document.nodes) twin) :
    Follows level passes Eq (Direct.renderNode options host graph depth ⟨.tag tag, []⟩) twin := by
  rw [Direct.renderNode]
  simp only [htype, Direct.documentOf_eq_partialDocument]
  by_cases hlimit : options.inclusionLimit ≤ depth
  · rw [dif_pos hlimit]
    exact follows_tooDeep tag.name options.inclusionLimit _
  · rw [dif_neg hlimit]
    intro n pass beside hn hp
    have hkeeps := keepsLevels_ofHost hl (ofHost_partialDocument host tag.name) n pass hn
    -- getting the partial changes only the first side, and its new pass still goes with the old one
    -- beside it
    obtain ⟨after, hfound, hafter⟩ := hgiven hg hp
    rw [hfound] at hkeeps
    simp only [Bind.bind, EStateM.bind, hfound, Direct.renderAll]
    exact hb (by omega) n after beside hkeeps hafter

/-- Nodes with some partials in place follow the nodes that include them. -/
theorem follows_renderAll (ht : Twins host other (fun _ => True) values passes)
    (ha : Admissible graph graph' names values) (hl : host.Levels level)
    (hgiven : Supplies host passes given) (hescape : options.escape = others.escape)
    (depth depth' : Nat)
    (hroom : options.inclusionLimit - depth ≤ others.inclusionLimit - depth')
    {nodes inlined : List Node} (hi : Inlined given nodes inlined) :
    Follows level passes Eq (Direct.renderAll options host graph depth nodes)
      (Direct.renderAll others other graph' depth' inlined) := by
  cases hi with
  | nil =>
    rw [Direct.renderAll, Direct.renderAll]
    exact follows_pure rfl
  | @keep label children replaced rest more hc hr =>
    rw [Direct.renderAll, Direct.renderAll]
    have hrest := follows_renderAll ht ha hl hgiven hescape depth depth' hroom hr
    have hchildren := follows_renderAll ht ha hl hgiven hescape depth depth' hroom hc
    have hnode := follows_renderNode ht ha hl hescape hroom label hchildren fun hlimit document =>
      follows_renderAll ht ha hl hgiven hescape (depth + 1) (depth' + 1) (by omega)
        (inlined_refl given document.nodes)
    exact hnode.andThen (keepsLevels_renderNode hl _) hrest
  | @inline tag document body rest more htype hg hb hr =>
    rw [Direct.renderAll, renderAll_append]
    have hrest := follows_renderAll ht ha hl hgiven hescape depth depth' hroom hr
    -- the partial counts as an inclusion on the first side only, so there the room gets less
    have hnode : Follows level passes Eq
        (Direct.renderNode options host graph depth ⟨.tag tag, []⟩)
        (Direct.renderAll others other graph' depth' body) :=
      follows_inlined hl hgiven htype hg fun hlimit =>
        follows_renderAll ht ha hl hgiven hescape (depth + 1) depth' (by omega) hb
    exact hnode.andThen (keepsLevels_renderNode hl _) hrest
termination_by ((options.inclusionLimit - depth).toNat, Node.countAll nodes)
decreasing_by
  all_goals simp_wf
  all_goals simp only [Node.countAll, Node.count]
  all_goals omega

end Nodes

end Render

/-! ## Errands -/

namespace Errand

open Render

/-- The loader has a source for the name, and the source is read as this document. -/
def Gives (errand : Errand ω ε ν) (name : String) (document : Document) : Prop :=
  ∃ source, errand.loader name = .ok (some source) ∧ Template.parse source = .ok document

theorem obtained_of_gives {errand : Errand ω ε ν} {name : String} {document : Document}
    (h : errand.Gives name document) : obtained errand.loader name = .ok (some document) := by
  obtain ⟨source, hl, hd⟩ := h
  simp only [obtained, hl, reading, hd]
  rfl

/-- A partial that the loader gives can be asked for on one side alone. -/
theorem supplies_gives (errand : Errand ω ε ν) :
    Supplies errand.host.recorded (errand.InStep []) errand.Gives := by
  intro name document hg pass beside h
  have hobtained := obtained_of_gives hg
  cases hk : pass.cache.lookup name with
  | some found =>
    have hknown := h.obtained_of_known hk
    have hpinned : (errand.pinnedTo []).loader name = errand.loader name := rfl
    rw [obtained, hpinned, ← obtained, hobtained] at hknown
    cases hknown
    exact ⟨pass, partialDocument_of_known errand hk, h⟩
  | none =>
    obtain ⟨notices, hf⟩ := exists_partialDocument_eq_fetch errand hk
    have hafter := h.after_fetch hk notices
    rw [fetch_of_ok errand hobtained] at hf hafter
    exact ⟨_, hf, hafter⟩

/-- **A partial means its text in place.** If some tags that include a partial are replaced by what the
loader gives for it, a new renderer makes the same calls of the context and of the sink, ends alike and
leaves the same world, unless it gave up before on a partial that is nested too deep. -/
theorem render_inlined (options : RenderOptions) (errand : Errand ω ε ν) (h : errand.host.Leavable)
    {document : Document} (hi : Inlined errand.Gives errand.document.nodes document.nodes) :
    let rendering := errand.render { options := options }
    let other := { errand with document := document }.render { options := options }
    (∀ name limit, rendering.result ≠ .error (.tooDeep name limit)) →
      other.result = rendering.result ∧ other.world.1 = rendering.world.1 ∧
        deeds other.world.2 = deeds rendering.world.2 := by
  intro rendering other hresult
  obtain ⟨level, hl, hstart⟩ := h.levels
  have hrendering : rendering = Renderer.renderDirectly _ _ _ _ _ :=
    Renderer.render_eq_of_levels _ hl.recorded errand.graph errand.document (hstart errand.world)
  have hother : other = Renderer.renderDirectly _ _ _ _ _ :=
    Renderer.render_eq_of_levels _ hl.recorded errand.graph document (hstart errand.world)
  have hbegin : errand.InStep [] ⟨[], 0, (errand.world, [])⟩ ⟨[], 0, (errand.world, [])⟩ :=
    (Session.sound_after options []).inStep errand
  have hroom : options.inclusionLimit - (0 : Nat) ≤ options.inclusionLimit - (0 : Nat) :=
    Int.le_refl _
  -- the levels let both renderings be told by the recursion, so nodes are compared where they stand
  have hfollows : Follows _ _ _ (Direct.renderAll options errand.host.recorded errand.graph 0 _)
      (Direct.renderAll options errand.host.recorded errand.graph 0 _) :=
    follows_renderAll (errand.twins_pinned []) (admissible_eq errand.graph Set.univ) hl.recorded
      errand.supplies_gives rfl 0 0 hroom hi
  simp only [hrendering, Renderer.renderDirectly] at hresult ⊢
  simp only [hother, Renderer.renderDirectly]
  rcases hfollows 0 _ _ (hstart errand.world) hbegin with ⟨name, limit, after, hdeep⟩ | halike
  · rw [hdeep] at hresult
    exact absurd rfl (hresult name limit)
  · rcases halike.exists_eq with ⟨_, _, _, _, ha, hb, _, hs⟩ | ⟨error, _, _, ha, hb, hs⟩
    · rw [ha, hb]
      exact ⟨rfl, hs.world.symm, hs.acts.symm⟩
    · rw [ha, hb]
      exact ⟨rfl, hs.world.symm, hs.acts.symm⟩

/-! ## A partial that includes itself -/

/-- Two mappings, the first with the second under the name of the section. -/
def nestedGraph : Graph Bool
  | true => .mapping [(.text "n", .scalar (.text "1")), (.text "a", .container false)]
  | false => .mapping [(.text "n", .scalar (.text "2")), (.text "a", .scalar (.text ""))]

/-- The source of a partial that writes a value and includes itself in a section. -/
def nestedSource : String := "{{n}}{{#a}}{{>p}}{{/a}}"

/-- What the source is read as. -/
def nestedNodes : List Node :=
  [⟨.tag ⟨"n", .escaped, 0⟩, []⟩,
    ⟨.tag ⟨"a", .sectionBegin, 5⟩, [⟨.tag ⟨"p", .inclusion, 11⟩, []⟩]⟩]

/-- Nodes in a section, rendered with that partial over those mappings. -/
def nestedErrand (nodes : List Node) : Errand (Stage (ContextStack Bool)) ContextError Bool where
  document := ⟨[⟨.tag ⟨"a", .sectionBegin, 0⟩, nodes⟩], ""⟩
  graph := nestedGraph
  context := (Stage.host (.ofStack nestedGraph) .empty).context
  write := (Stage.host (.ofStack nestedGraph) .empty).write
  world := { context := ⟨.object (.mapping [(.text "a", .container true)]), []⟩ }
  loader _ := .ok (some nestedSource)

/-- The stack of values of the stage that the errand is done on. -/
def nestedSeat (nodes : List Node) : (nestedErrand nodes).host.Seat nestedGraph where
  get := Stage.context
  set context stage := { stage with context := context }
  embed := id
  context_eq := rfl
  get_set _ _ := rfl
  get_write _ _ := rfl
  get_load _ _ := rfl
  get_note _ _ := rfl

/-- The partial is put in place once, and still includes itself from there. -/
theorem render_inlined_nested :
    let rendering := (nestedErrand [⟨.tag ⟨"p", .inclusion, 6⟩, []⟩]).render {}
    let other := (nestedErrand nestedNodes).render {}
    rendering.result = .ok () ∧ rendering.world.1.written = ["2", "1"] ∧
      other.result = rendering.result ∧ other.world.1 = rendering.world.1 ∧
      deeds other.world.2 = deeds rendering.world.2 := by
  intro rendering other
  let errand := nestedErrand [⟨.tag ⟨"p", .inclusion, 6⟩, []⟩]
  have hgives : errand.Gives "p" ⟨nestedNodes, nestedSource⟩ := ⟨nestedSource, rfl, by cbv⟩
  have hbody : Inlined errand.Gives [⟨.tag ⟨"p", .inclusion, 6⟩, []⟩] (nestedNodes ++ []) :=
    .inline rfl hgives (inlined_refl _ nestedNodes) .nil
  have hinlined : Inlined errand.Gives errand.document.nodes
      (nestedErrand nestedNodes).document.nodes := .keep _ hbody .nil
  have hwalk : ((visitor {} errand.host.recorded errand.graph).runFor 40
      (Renderer.start {} errand.document (errand.world, []))).map (fun outcome =>
        (outcome.verdict.map fun _ => (), outcome.state.world.1.written)) =
      some (.ok (), ["2", "1"]) := by
    decide +kernel
  obtain ⟨outcome, houtcome, hread⟩ := Option.map_eq_some_iff.1 hwalk
  obtain ⟨hverdict, hwritten⟩ := Prod.mk.inj hread
  have hrendering : rendering = _ := Renderer.render_eq_of_ends ⟨40, houtcome⟩
  have hresult : rendering.result = .ok () := by
    rw [hrendering]
    exact hverdict
  have hwrites : rendering.world.1.written = ["2", "1"] := by
    rw [hrendering]
    exact hwritten
  refine ⟨hresult, hwrites, ?_⟩
  refine errand.render_inlined {} (.stacked (nestedSeat _)) hinlined fun name limit hdeep => ?_
  rw [show (errand.render {}).result = .ok () from hresult] at hdeep
  cases hdeep

end Errand

end Stencil

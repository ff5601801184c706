import Stencil.Proofs.Render.Levels

/-!
# The walk renders what the recursion renders

The renderer never recurses: it queues the bodies of sections and the partials as walks with hooks, on
one stack, and counts inclusions as it goes. Here it is shown to do, call for call, what the recursion
of `Render.Direct` does.

The heart of the matter is `Mirrors`: an action mirrors some nodes, at some number of inclusions, if
these nodes, walked in any frame above any others, come to what the action comes to. The rules of
`Walk.Traversal` turn the clauses of the recursion into facts of that kind one by one, and what is
left is an induction on how many more partials may be nested and on the number of nodes.

The recursion leaves the number of inclusions alone and the walk changes it, so their passes are not
the same while a partial is rendered. They are the same but for that number, and no action of the
recursion looks at it (`Blind`).
-/

set_option autoImplicit false

namespace Stencil.Render

open Walk

variable {ω ε ν : Type}

/-! ## Pieces of a walk -/

/-- An action as a piece of a walk that is completed if the action succeeds. -/
def completing : EStateM.Result (RenderError ε) (Pass ω) Unit →
    EStateM.Result (RenderError ε) (Pass ω) Ending
  | .ok _ pass => .ok .completed pass
  | .error error pass => .error error pass

theorem stateOf_completing (result : EStateM.Result (RenderError ε) (Pass ω) Unit) :
    stateOf (completing result) = stateOf result := by
  cases result <;> rfl

theorem completing_withState (pass : Pass ω)
    (result : EStateM.Result (RenderError ε) (Pass ω) Unit) :
    completing (withState pass result) = withState pass (completing result) := by
  cases result <;> rfl

theorem completing_bind (first next : Action ω ε Unit) (pass : Pass ω) :
    completing ((first >>= fun _ => next) pass) =
      andThen (completing (first pass)) fun after => completing (next after) := by
  simp only [bind, EStateM.bind]
  cases first pass <;> rfl

theorem eq_ok_of_completing {result : EStateM.Result (RenderError ε) (Pass ω) Unit} {pass : Pass ω}
    (h : completing result = .ok .completed pass) : result = .ok () pass := by
  cases result with
  | ok _ after =>
    cases h
    rfl
  | error error after => cases h

section Mirrors

variable {options : RenderOptions} {host : Host ω ε ν} {graph : Graph ν} {level : Nat → ω → Prop}

/-- The action does what walking the nodes does, when so many inclusions are in progress. -/
structure Mirrors (options : RenderOptions) (host : Host ω ε ν) (graph : Graph ν)
    (level : Nat → ω → Prop) (depth : Nat) (nodes : List Node) (action : Action ω ε Unit) :
    Prop where
  blind : Blind action
  keeps : KeepsLevels level action
  yields : ∀ {n pass} walkDepth, pass.inclusions = depth → level n pass.world →
    (visitor options host graph).Yields nodes walkDepth pass (completing (action pass))

/-- The action does what this answer to a visit of the node leads to, with all the walks that it asks
for. -/
structure Answers (options : RenderOptions) (host : Host ω ε ν) (graph : Graph ν)
    (level : Nat → ω → Prop) (depth : Nat) (node : Node)
    (answer : Int → Action ω ε (Control × List (Request (Hook ν)))) (action : Action ω ε Unit) :
    Prop where
  blind : Blind action
  keeps : KeepsLevels level action
  asks : ∀ {n pass} walkDepth, pass.inclusions = depth → level n pass.world →
    (visitor options host graph).Asks node walkDepth (answer walkDepth pass)
      (completing (action pass))

theorem mirrors_nil (depth : Nat) : Mirrors options host graph level depth [] (pure ()) where
  blind _ _ := rfl
  keeps _ _ h := h
  yields walkDepth _ _ := Visitor.yields_nil walkDepth _

theorem mirrors_cons {depth : Nat} {node : Node} {rest : List Node} {first next : Action ω ε Unit}
    (hf : Answers options host graph level depth node (visit options host graph node) first)
    (hn : Mirrors options host graph level depth rest next) :
    Mirrors options host graph level depth (node :: rest) (first >>= fun _ => next) where
  blind := blind_bind hf.blind fun _ => hn.blind
  keeps := keepsLevels_bind hf.keeps fun _ => hn.keeps
  yields {n pass} walkDepth hi hw := by
    rw [completing_bind]
    refine Visitor.yields_cons (hf.asks walkDepth hi hw) fun middle hm => ?_
    -- the siblings find the count and the level as the node found them
    have hblind := hf.blind.inclusions pass
    have hkeeps := hf.keeps n pass hw
    rw [eq_ok_of_completing hm] at hblind hkeeps
    exact hn.yields walkDepth (hblind.trans hi) hkeeps

/-! ## The walks over a body -/

theorem carries_body {depth : Nat} {nodes : List Node} {body : Action ω ε Unit} {n : Nat}
    {pass : Pass ω} (hb : Mirrors options host graph level depth nodes body) (walkDepth : Int)
    (hi : pass.inclusions = depth) (hw : level n pass.world) :
    (visitor options host graph).Carries [⟨nodes, walkDepth, none⟩] pass
      (completing (body pass)) := by
  have hc := Visitor.carries_cons_hookless (hb.yields walkDepth hi hw) fun middle _ =>
    Visitor.carries_nil middle
  rwa [andThen_completed] at hc

theorem carries_scopes (hl : host.Levels level) {scopes : Scopes ω ε ν}
    (hs : host.context.scopes = some scopes) {depth : Nat} {nodes : List Node}
    {body : Action ω ε Unit} (hb : Mirrors options host graph level depth nodes body)
    (walkDepth : Int) (values : List (Value ν)) {n : Nat} {pass : Pass ω}
    (hi : pass.inclusions = depth) (hw : level n pass.world) :
    (visitor options host graph).Carries
      (values.map fun value => ⟨nodes, walkDepth, some (.scope value)⟩) pass
      (completing (Direct.inScopes scopes body values pass)) := by
  -- over the values that are still to be entered, from the pass that the last scope leaves
  induction values generalizing pass with
  | nil => exact Visitor.carries_nil pass
  | cons value rest ih =>
    have hblind := (blind_inScope scopes value hb.blind).inclusions pass
    rw [List.map_cons, Direct.inScopes, completing_bind]
    rcases inScope_cases hl hs hb.keeps value hw with
      ⟨error, after, henter, heq, _⟩ | ⟨entered, left, henter, hleave, heq, hentered, hleft⟩
    · rw [heq]
      exact Visitor.carries_cons_of_error henter
    -- a push is no inclusion, so the body finds the count that it is mirrored at
    · have hin : entered.inclusions = depth := by
        rw [enter_scope_eq hs] at henter
        have := (blind_lift (scopes.push value)).inclusions pass
        rw [henter] at this
        exact this.trans hi
      rw [heq] at hblind ⊢
      rw [completing_withState]
      refine Visitor.carries_cons henter (hb.yields walkDepth hin hentered) ?_ fun _ => ?_
      · rw [stateOf_completing]
        exact hleave
      · rw [stateOf_withState] at hblind
        exact ih (hblind.trans hi) hleft

/-- A walk over a partial, which counts as one inclusion more while it lasts. -/
theorem carries_inclusion {depth : Nat} {nodes : List Node} {nested : Action ω ε Unit} {n : Nat}
    {pass : Pass ω} (hm : Mirrors options host graph level (depth + 1) nodes nested)
    (walkDepth : Int) (hi : pass.inclusions = depth) (hw : level n pass.world) :
    (visitor options host graph).Carries [⟨nodes, walkDepth, some .inclusion⟩] pass
      (completing (nested pass)) := by
  have henter : (visitor options host graph).enterHook (some .inclusion) pass =
      .ok () (pass.count (depth + 1)) := by
    rw [← hi]
    rfl
  -- the recursion does not count: with one more in the pass it does the same
  have hstate : stateOf (completing (nested (pass.count (depth + 1)))) =
      (stateOf (nested pass)).count (depth + 1) := by
    rw [stateOf_completing, hm.blind pass (depth + 1), stateOf_withState]
  have hleave : (visitor options host graph).leaveHook (some .inclusion)
      ((stateOf (nested pass)).count (depth + 1)) = .ok () (stateOf (nested pass)) := by
    show EStateM.Result.ok () ((stateOf (nested pass)).count depth) = _
    rw [count_eq_self ((hm.blind.inclusions pass).trans hi)]
  have hnested : level n (pass.count (depth + 1)).world := hw
  have hc := Visitor.carries_singleton henter (hm.yields walkDepth rfl hnested)
    (hstate ▸ hleave)
  rwa [← completing_withState, hm.blind pass (depth + 1), withState_withState,
    withState_stateOf] at hc

/-! ## What a visit does -/

theorem bind_unit (action : Action ω ε Unit) : (action >>= fun _ => pure ()) = action := by
  funext pass
  simp only [bind, EStateM.bind]
  cases action pass <;> rfl

theorem isAbsent_of (found : Option (Value ν)) :
    (SectionPlan.of host.isScoped found).isAbsent = Direct.isMissing host found := by
  cases found with
  | none => rfl
  | some value =>
    simp only [SectionPlan.of, Direct.isMissing_some]
    cases host.isScoped <;> cases value.isTruthy <;> cases value <;> rfl

theorem visit_of_section {node : Node} {tag : Tag} (hl : node.label = .tag tag)
    (ht : tag.type = .sectionBegin) (walkDepth : Int) :
    visit options host graph node walkDepth =
      lift (host.context.lookup tag.name) >>= fun found =>
        match (SectionPlan.of host.isScoped found).requests graph node walkDepth with
        | .ok requests => pure requests
        | .error error => throw (.item error) := by
  funext pass
  simp only [visit, hl, ht, plan, bind, EStateM.bind]
  cases lift (host.context.lookup tag.name) pass <;> rfl

theorem visit_of_inverted {node : Node} {tag : Tag} (hl : node.label = .tag tag)
    (ht : tag.type = .invertedBegin) (walkDepth : Int) :
    visit options host graph node walkDepth =
      lift (host.context.lookup tag.name) >>= fun found =>
        pure (if (SectionPlan.of host.isScoped found).isAbsent then .proceed else .skip, []) := by
  funext pass
  simp only [visit, hl, ht, plan, bind, EStateM.bind]
  cases lift (host.context.lookup tag.name) pass <;> rfl

theorem visit_of_inclusion_of_lt {node : Node} {tag : Tag} (hl : node.label = .tag tag)
    (ht : tag.type = .inclusion) (walkDepth : Int) {pass : Pass ω}
    (hlimit : ¬ options.inclusionLimit ≤ pass.inclusions) :
    visit options host graph node walkDepth pass =
      (partialDocument host tag.name >>= fun found =>
        pure (.proceed, inclusionOf walkDepth found)) pass := by
  rw [visit_of_inclusion options host graph hl ht]
  simp only [bind, EStateM.bind]
  rw [requestPartial_of_lt options host walkDepth hlimit]
  simp only [bind, EStateM.bind]
  cases partialDocument host tag.name pass <;> rfl

/-! ## What a visit answers -/

variable {depth : Nat} {node : Node}

/-- An action that comes before both what a visit answers and what the recursion does next. -/
theorem answers_bind (hl : host.Levels level) {α : Type} {first : Action ω ε α}
    {answer : α → Int → Action ω ε (Control × List (Request (Hook ν)))}
    {next : α → Action ω ε Unit} (ho : OfHost host first)
    (hn : ∀ a, Answers options host graph level depth node (answer a) (next a)) :
    Answers options host graph level depth node
      (fun walkDepth => first >>= fun a => answer a walkDepth) (first >>= next) where
  blind := blind_bind ho.blind fun a => (hn a).blind
  keeps := keepsLevels_bind (keepsLevels_ofHost hl ho) fun a => (hn a).keeps
  asks {n pass} walkDepth hi hw := by
    have hblind := ho.blind.inclusions pass
    have hkeeps := keepsLevels_ofHost hl ho n pass hw
    simp only [bind, EStateM.bind]
    cases hf : first pass with
    | ok a after =>
      rw [hf] at hblind hkeeps
      exact (hn a).asks walkDepth (hblind.trans hi) hkeeps
    | error error after => rfl

theorem answers_body {body : Action ω ε Unit}
    (hb : Mirrors options host graph level depth node.children body) :
    Answers options host graph level depth node (fun _ => pure (.proceed, [])) body where
  blind := hb.blind
  keeps := hb.keeps
  asks walkDepth hi hw := carries_body hb (walkDepth + 1) hi hw

theorem answers_skip :
    Answers options host graph level depth node (fun _ => pure (.skip, [])) (pure ()) where
  blind _ _ := rfl
  keeps _ _ h := h
  asks _ _ _ := Visitor.carries_nil _

theorem answers_throw (error : RenderError ε) :
    Answers options host graph level depth node (fun _ => throw error) (throw error) where
  blind _ _ := rfl
  keeps _ _ h := h
  asks _ _ _ := rfl

theorem answers_scopes (hl : host.Levels level) {scopes : Scopes ω ε ν}
    (hs : host.context.scopes = some scopes) {body : Action ω ε Unit}
    (hb : Mirrors options host graph level depth node.children body) (values : List (Value ν)) :
    Answers options host graph level depth node
      (fun walkDepth => pure (.skip,
        values.map fun value => ⟨node.children, walkDepth + 1, some (.scope value)⟩))
      (Direct.inScopes scopes body values) where
  blind := blind_inScopes scopes hb.blind values
  keeps := keepsLevels_inScopes hl hs hb.keeps values
  asks walkDepth hi hw := carries_scopes hl hs hb (walkDepth + 1) values hi hw

theorem answers_inclusion {nodes : List Node} {body nested : Action ω ε Unit}
    (hb : Mirrors options host graph level depth node.children body)
    (hm : Mirrors options host graph level (depth + 1) nodes nested) :
    Answers options host graph level depth node
      (fun walkDepth => pure (.proceed, [⟨nodes, walkDepth + 1, some .inclusion⟩]))
      (body >>= fun _ => nested) where
  blind := blind_bind hb.blind fun _ => hm.blind
  keeps := keepsLevels_bind hb.keeps fun _ => hm.keeps
  asks {n pass} walkDepth hi hw := by
    rw [completing_bind]
    refine Visitor.carries_cons_hookless (hb.yields (walkDepth + 1) hi hw) fun middle hmiddle => ?_
    have hblind := hb.blind.inclusions pass
    have hkeeps := hb.keeps n pass hw
    rw [eq_ok_of_completing hmiddle] at hblind hkeeps
    exact carries_inclusion hm (walkDepth + 1) (hblind.trans hi) hkeeps

theorem answers_sectionOver (hl : host.Levels level) {body : Action ω ε Unit}
    (hb : Mirrors options host graph level depth node.children body) (value : Value ν) :
    Answers options host graph level depth node
      (fun walkDepth =>
        match (SectionPlan.of host.isScoped (some value)).requests graph node walkDepth with
        | .ok requests => pure requests
        | .error error => throw (.item error))
      (Direct.sectionOver host graph value body) := by
  cases hs : host.context.scopes with
  | none =>
    simp only [Direct.sectionOver, SectionPlan.of, Host.isScoped, hs]
    exact answers_body hb
  | some scopes =>
    cases ht : value.isTruthy with
    | false =>
      simp only [Direct.sectionOver, SectionPlan.of, Host.isScoped, hs, ht]
      exact answers_skip
    | true =>
      cases value with
      | list items =>
        simp only [Direct.sectionOver, SectionPlan.of, Host.isScoped, hs, ht, Option.isSome_some,
          Bool.not_true, Bool.false_eq_true, if_false, if_true, SectionPlan.requests, sectionScopes]
        cases (Value.list items).items graph with
        | error error => exact answers_throw _
        | ok values => exact answers_scopes hl hs hb values
      | object fields =>
        have hlast : Direct.inScopes scopes body [Value.object fields] =
            Direct.inScope scopes (.object fields) body := by
          funext pass
          simp only [Direct.inScopes, bind, EStateM.bind]
          cases Direct.inScope scopes (.object fields) body pass <;> rfl
        simp only [Direct.sectionOver, SectionPlan.of, Host.isScoped, hs, ht, Option.isSome_some,
          Bool.not_true, Bool.false_eq_true, if_false, if_true]
        rw [← hlast]
        exact answers_scopes hl hs hb [Value.object fields]
      | _ =>
        simp only [Direct.sectionOver, SectionPlan.of, Host.isScoped, hs, ht, Option.isSome_some,
          Bool.not_true, Bool.false_eq_true, if_false, if_true]
        exact answers_body hb

theorem answers_section (hl : host.Levels level) {body : Action ω ε Unit}
    (hb : Mirrors options host graph level depth node.children body) (found : Option (Value ν)) :
    Answers options host graph level depth node
      (fun walkDepth =>
        match (SectionPlan.of host.isScoped found).requests graph node walkDepth with
        | .ok requests => pure requests
        | .error error => throw (.item error))
      (match found with
      | none => pure ()
      | some value => Direct.sectionOver host graph value body) := by
  cases found with
  | none => exact answers_skip
  | some value => exact answers_sectionOver hl hb value

theorem answers_inverted {body : Action ω ε Unit}
    (hb : Mirrors options host graph level depth node.children body) (found : Option (Value ν)) :
    Answers options host graph level depth node
      (fun _ =>
        pure (if (SectionPlan.of host.isScoped found).isAbsent then .proceed else .skip, []))
      (if Direct.isMissing host found then body else pure ()) := by
  rw [isAbsent_of]
  cases Direct.isMissing host found with
  | true => exact answers_body hb
  | false => exact answers_skip

theorem answers_found {body : Action ω ε Unit} {nested : Document → Action ω ε Unit}
    (hb : Mirrors options host graph level depth node.children body)
    (hm : ∀ document, Mirrors options host graph level (depth + 1) document.nodes (nested document))
    (found : Option Document) :
    Answers options host graph level depth node
      (fun walkDepth => pure (.proceed, inclusionOf walkDepth found))
      (body >>= fun _ =>
        match found with
        | none => pure ()
        | some document => nested document) := by
  cases found with
  | none =>
    show Answers options host graph level depth node (fun _ => pure (.proceed, []))
      (body >>= fun _ => pure ())
    rw [bind_unit]
    exact answers_body hb
  | some document => exact answers_inclusion hb (hm document)

theorem Answers.congr {answer other : Int → Action ω ε (Control × List (Request (Hook ν)))}
    {action : Action ω ε Unit} (h : Answers options host graph level depth node answer action)
    (heq : ∀ walkDepth pass, pass.inclusions = depth →
      other walkDepth pass = answer walkDepth pass) :
    Answers options host graph level depth node other action where
  blind := h.blind
  keeps := h.keeps
  asks walkDepth hi hw := by
    rw [heq walkDepth _ hi]
    exact h.asks walkDepth hi hw

/-! ## All nodes -/

/-- If the recursion mirrors the children of a node and the partials that it may include, it does what
a visit of the node leads to. -/
theorem answers_renderNode (hl : host.Levels level)
    (hc : Mirrors options host graph level depth node.children
      (Direct.renderAll options host graph depth node.children))
    (hp : depth < options.inclusionLimit → ∀ document : Document,
      Mirrors options host graph level (depth + 1) document.nodes
        (Direct.renderAll options host graph (depth + 1) document.nodes)) :
    Answers options host graph level depth node (visit options host graph node)
      (Direct.renderNode options host graph depth node) := by
  rw [Direct.renderNode]
  simp only [Direct.ask_eq_lift, Direct.renderVariable_eq_substitute,
    Direct.documentOf_eq_partialDocument]
  cases hn : node.label with
  | root =>
    refine (answers_body hc).congr fun walkDepth pass _ => ?_
    simp only [visit, hn]
  | text content position =>
    refine (answers_bind hl (.write content) fun _ => answers_body hc).congr
      fun walkDepth pass _ => ?_
    simp only [visit, hn]
  | tag tag =>
    -- a visit and the recursion first do the same action, and then one asks for walks where the other
    -- recurses
    cases ht : tag.type with
    | escaped =>
      simp only [ht]
      refine (answers_bind hl (ofHost_substitute host tag.name options.escape) fun _ =>
        answers_body hc).congr fun walkDepth pass _ => ?_
      simp only [visit, hn, ht]
    | unescaped =>
      simp only [ht]
      refine (answers_bind hl (ofHost_substitute host tag.name false) fun _ =>
        answers_body hc).congr fun walkDepth pass _ => ?_
      simp only [visit, hn, ht]
    | sectionBegin =>
      simp only [ht]
      refine (answers_bind hl (.lookup tag.name) (answers_section hl hc)).congr
        fun walkDepth pass _ => ?_
      rw [visit_of_section hn ht]
    | invertedBegin =>
      simp only [ht]
      refine (answers_bind hl (.lookup tag.name) (answers_inverted hc)).congr
        fun walkDepth pass _ => ?_
      rw [visit_of_inverted hn ht]
    | inclusion =>
      simp only [ht]
      -- the walk looks at its count, and the recursion at its depth; that these are one number is an
      -- assumption
      by_cases hlimit : options.inclusionLimit ≤ depth
      · rw [dif_pos hlimit]
        refine (answers_throw _).congr fun walkDepth pass hi => ?_
        rw [visit_of_inclusion options host graph hn ht]
        simp only [bind, EStateM.bind]
        rw [requestPartial_of_le options host walkDepth (by rw [hi]; exact hlimit)]
        rfl
      · rw [dif_neg hlimit]
        refine (answers_bind hl (ofHost_partialDocument host tag.name)
          (answers_found hc fun document => hp (by omega) document)).congr fun walkDepth pass hi => ?_
        exact visit_of_inclusion_of_lt hn ht walkDepth (by rw [hi]; exact hlimit)
    | comment | sectionEnd | switch | invalid =>
      simp only [ht]
      refine (answers_body hc).congr fun walkDepth pass _ => ?_
      simp only [visit, hn, ht]

/-- **The recursion mirrors the walk**, for all nodes and below any number of inclusions. -/
theorem mirrors_renderAll (hl : host.Levels level) (depth : Nat) (nodes : List Node) :
    Mirrors options host graph level depth nodes
      (Direct.renderAll options host graph depth nodes) := by
  cases nodes with
  | nil =>
    rw [Direct.renderAll]
    exact mirrors_nil depth
  | cons node rest =>
    rw [Direct.renderAll]
    refine mirrors_cons (answers_renderNode hl ?_ fun hlimit document => ?_) ?_
    · exact mirrors_renderAll hl depth node.children
    · exact mirrors_renderAll hl (depth + 1) document.nodes
    · exact mirrors_renderAll hl depth rest
termination_by ((options.inclusionLimit - depth).toNat, Node.countAll nodes)
decreasing_by
  -- a partial leaves less room for others, and all else is a smaller part of the same nodes
  all_goals have := node.count_eq
  all_goals have := node.count_pos
  all_goals simp_wf
  all_goals simp only [Node.countAll]
  all_goals omega

end Mirrors

end Stencil.Render

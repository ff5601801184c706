import Stencil.Proofs.Data.Written
import Stencil.Proofs.Render.Indifference
import Stencil.Proofs.Render.Requests
import Stencil.Proofs.Walk.Steps

/-!
# Sections and inverted sections are complements

A section and an inverted section of one name are decided apart from each other, and between the two
decisions the body of the section may have been rendered, with all the scopes and partials in it. They
agree all the same, if the context is steady: looking names up does not change it, and leaving a scope
undoes the entering of it. Such a context is after a body what it was before
(`Context.Steady.of_performs`).

So the two bodies exclude each other, and one of them is rendered (`sections_complementary`). How often
it is that for the section depends on nothing but what its name was found to be (`renderings`).
-/

set_option autoImplicit false

namespace Stencil

open Walk Render

variable {κ ω δ ε ν : Type}

/-! ## Contexts that are left as they were found -/

/-- A context whose lookups do not change its state and whose pops undo its pushes. -/
structure Context.Steady (context : Context κ δ ν) : Prop where
  lookup : ∀ name state, stateOf (context.lookup name state) = state
  pop : ∀ {scopes}, context.scopes = some scopes → ∀ {value state entered},
    scopes.push value state = .ok () entered → ∃ popped, scopes.pop entered = .ok popped state

theorem Context.steady_ofStack (graph : Graph ν) : (Context.ofStack graph).Steady where
  lookup name stack := by
    simp only [Context.ofStack]
    cases stack.lookup graph name <;> rfl
  pop hs value stack entered he := by
    cases hs
    cases he
    exact ⟨value, rfl⟩

theorem Context.steady_flat (graph : Graph ν) (entries : List (Literal × Datum ν)) :
    (Context.flat graph entries : Context κ ContextError ν).Steady where
  lookup name state := by
    simp only [Context.flat]
    cases Context.lookupKey graph entries name <;> rfl
  pop hs := nomatch hs

theorem fst_stateOf_zoom {α : Type} (action : EStateM ε ω α) (whole : κ × ω) :
    (stateOf (zoom Prod.snd (fun world (whole : κ × ω) => (whole.1, world)) (id : ε → ε) action
      whole)).1 = whole.1 := by
  simp only [zoom]
  cases action whole.2 <;> rfl

namespace Context.Steady

variable {context : Context κ δ ν} {outlet : Outlet ω ε} {embed : δ → ε}

theorem stateOf_lookup (h : context.Steady) (name : String) (whole : κ × ω) :
    stateOf ((outlet.over context embed).context.lookup name whole) = whole := by
  have hstate := h.lookup name whole.1
  simp only [Outlet.over, Context.zoom, Stencil.zoom]
  cases hl : context.lookup name whole.1 with
  | ok found state =>
    rw [hl] at hstate
    cases hstate
    rfl
  | error error state =>
    rw [hl] at hstate
    cases hstate
    rfl

theorem preserves (h : context.Steady) (state : κ) :
    (outlet.over context embed).Preserves fun whole => whole.1 = state where
  lookup name whole hw := by
    rw [h.stateOf_lookup]
    exact hw
  write text whole hw := (fst_stateOf_zoom _ whole).trans hw
  load name whole hw := (fst_stateOf_zoom _ whole).trans hw
  note _ _ hw := hw

theorem stateOf_visit (h : context.Steady) (options : RenderOptions) (graph : Graph ν) (node : Node)
    (depth : Int) (pass : Pass (κ × ω)) :
    (stateOf (visit options (outlet.over context embed) graph node depth pass)).world.1 =
      pass.world.1 := by
  obtain ⟨action, ha, heq⟩ := exists_ofHost_visit options (outlet.over context embed) graph node depth
    pass
  rw [heq]
  exact ha.preserves (h.preserves pass.world.1) rfl

/-- What is between entering a hook and leaving it does not show, if it leaves the context alone. -/
theorem of_hook (h : context.Steady) {options : RenderOptions} {graph : Graph ν}
    {hook : Option (Hook ν)} {pass entered walked left : Pass (κ × ω)}
    (he : (visitor options (outlet.over context embed) graph).enterHook hook pass = .ok () entered)
    (hw : walked.world.1 = entered.world.1)
    (hl : (visitor options (outlet.over context embed) graph).leaveHook hook walked = .ok () left) :
    left.world.1 = pass.world.1 := by
  match hook with
  | none =>
    cases he
    cases hl
    exact hw
  | some .inclusion =>
    cases he
    cases hl
    exact hw
  | some (.scope value) =>
    cases hs : context.scopes with
    | none =>
      have hover : (outlet.over context embed).context.scopes = none := by
        simp only [Outlet.over, Context.zoom, hs, Option.map_none]
      simp only [Visitor.enterHook, visitor, enter, hover] at he
      simp only [Visitor.leaveHook, visitor, leave, hover] at hl
      cases he
      cases hl
      exact hw
    | some scopes =>
      have hover : (outlet.over context embed).context.scopes = some
          { push := fun value =>
              Stencil.zoom Prod.fst (fun state whole => (state, whole.2)) embed (scopes.push value)
            pop := Stencil.zoom Prod.fst (fun state whole => (state, whole.2)) embed scopes.pop } := by
        simp only [Outlet.over, Context.zoom, hs, Option.map_some]
      simp only [Visitor.enterHook, visitor, enter_scope_eq hover] at he
      simp only [Visitor.leaveHook, visitor, leave_scope_eq hover] at hl
      have hpush := of_lift_ok he
      simp only [Stencil.zoom] at hpush
      cases hp : scopes.push value pass.world.1 with
      | error error state =>
        rw [hp] at hpush
        cases hpush
      | ok u state =>
        rw [hp] at hpush
        injection hpush with _ hentered
        -- the state that the scope was entered with is the one that is popped
        have hstate : walked.world.1 = state := by rw [hw, ← hentered]
        obtain ⟨popped, hpop⟩ := h.pop hs hp
        rw [← hstate] at hpop
        simp only [bind, EStateM.bind, lift, Stencil.zoom, hpop] at hl
        cases hl
        rfl

/-- **The context is after a traversal what it was before.** -/
theorem of_performs (h : context.Steady) {options : RenderOptions} {graph : Graph ν}
    {task : Walk.Task (Hook ν)} {pass after : Pass (κ × ω)} {events : List (Event (Hook ν))}
    {ending : Ending}
    (hp : (visitor options (outlet.over context embed) graph).Performs task pass events ending
      after) : after.world.1 = pass.world.1 := by
  -- a visit that succeeds leaves the context as any visit does
  have hvisit {node : Node} {depth : Int} {answer : Control × List (Request (Hook ν))}
      {pass visited : Pass (κ × ω)}
      (hv : (visitor options (outlet.over context embed) graph).visit node depth pass =
        .ok answer visited) : visited.world.1 = pass.world.1 := by
    have hstate : (stateOf (visit options (outlet.over context embed) graph node depth pass)).world.1 =
        pass.world.1 := h.stateOf_visit options graph node depth pass
    rw [show visit options _ graph node depth pass = _ from hv] at hstate
    exact hstate
  induction hp with
  | done | idle => rfl
  | stop hv => exact hvisit hv
  | cut hv _ _ ih => exact ih.trans (hvisit hv)
  | next hv _ _ _ ihw ihn => exact ihn.trans (ihw.trans (hvisit hv))
  | abandon he _ hl ih => exact h.of_hook he ih hl
  | proceed he _ hl _ ihw ihn => exact ihn.trans (h.of_hook he ihw hl)

end Context.Steady

/-! ## How often the body is rendered -/

namespace Render

/-- How often the body of a section is rendered, from what its name was found to be. -/
def renderings (isScoped : Bool) : Option (Value ν) → Nat
  | none => 0
  | some value =>
    if !isScoped then 1
    else
      match value with
      | .list items => items.length
      | value => if value.isTruthy then 1 else 0

theorem renderings_eq_zero_iff (value : Value ν) :
    renderings true (some value) = 0 ↔ value.isTruthy = false := by
  cases value with
  | list items => cases items <;> simp [renderings, Value.isTruthy]
  | text content => simp [renderings, Value.isTruthy]
  | bool flag => cases flag <;> simp [renderings, Value.isTruthy]
  | object fields => simp [renderings, Value.isTruthy]

/-- An inverted section is rendered if the section is not rendered even once. -/
theorem isAbsent_iff (isScoped : Bool) (found : Option (Value ν)) :
    (SectionPlan.of isScoped found).isAbsent = true ↔ renderings isScoped found = 0 := by
  cases found with
  | none => exact iff_of_true rfl rfl
  | some value =>
    cases isScoped with
    | false => exact iff_of_false nofun nofun
    | true =>
      rw [renderings_eq_zero_iff]
      simp only [SectionPlan.of]
      cases value.isTruthy <;> cases value <;> simp [SectionPlan.isAbsent]

/-- **A section asks for its body as often as it is to be rendered**, and for nothing else. -/
theorem walks_of_requests {graph : Graph ν} {node : Node} {depth : Int} {isScoped : Bool}
    {found : Option (Value ν)} {control : Control} {requests : List (Request (Hook ν))}
    (h : (SectionPlan.of isScoped found).requests graph node depth = .ok (control, requests)) :
    control ≠ .stop ∧
      (control.walks node depth requests).length = renderings isScoped found ∧
      ∀ walk ∈ control.walks node depth requests,
        walk.nodes = node.children ∧ walk.depth = depth + 1 := by
  cases found with
  | none =>
    cases h
    exact ⟨nofun, rfl, nofun⟩
  | some value =>
    cases isScoped with
    | false =>
      cases h
      exact ⟨nofun, rfl, List.forall_mem_singleton.2 ⟨rfl, rfl⟩⟩
    | true =>
      cases ht : value.isTruthy with
      | false =>
        simp only [SectionPlan.of, ht] at h
        cases h
        exact ⟨nofun, ((renderings_eq_zero_iff value).2 ht).symm, nofun⟩
      | true =>
        simp only [SectionPlan.of, ht] at h
        cases value with
        | text content | bool flag =>
          cases h
          refine ⟨nofun, ?_, List.forall_mem_singleton.2 ⟨rfl, rfl⟩⟩
          simp [renderings, ht, Control.walks]
        | object fields =>
          cases h
          exact ⟨nofun, rfl, List.forall_mem_singleton.2 ⟨rfl, rfl⟩⟩
        | list items =>
          have h : (SectionPlan.inScopes (.list items)).requests graph node depth =
              .ok (control, requests) := h
          cases hs : sectionScopes graph (.list items) with
          | error error => simp [SectionPlan.requests, hs, Except.map] at h
          | ok values =>
            simp only [SectionPlan.requests, hs, Except.map] at h
            cases h
            have hm : items.mapM (Value.wrap graph) = .ok values := hs
            refine ⟨nofun, ?_, ?_⟩
            · exact (List.length_map _).trans (length_of_mapM hm)
            · intro walk hw
              obtain ⟨value, _, rfl⟩ := List.mem_map.1 hw
              exact ⟨rfl, rfl⟩

/-! ## A rendering is never stopped -/

theorem control_of_visit {options : RenderOptions} {host : Host ω ε ν} {graph : Graph ν} {node : Node}
    {depth : Int} {pass after : Pass ω} {control : Control} {requests : List (Request (Hook ν))}
    (h : visit options host graph node depth pass = .ok (control, requests) after) :
    control ≠ .stop := by
  -- stopping is for visitors with an end of their own, and no label makes this one stop
  cases hl : node.label with
  | root =>
    simp only [visit, hl] at h
    cases h
    decide
  | text content position =>
    simp only [visit, hl] at h
    obtain ⟨_, _, hr⟩ := of_bind_pure h
    cases hr
    decide
  | tag tag =>
    cases ht : tag.type <;> simp only [visit, hl, ht] at h
    case sectionBegin =>
      rw [plan] at h
      cases hf : lift (host.context.lookup tag.name) pass with
      | error error failed => simp [bind, EStateM.bind, hf] at h
      | ok found looked =>
        simp only [bind, EStateM.bind, hf] at h
        cases hr : (SectionPlan.of host.isScoped found).requests graph node depth with
        | error error =>
          simp only [hr, pure, EStateM.pure] at h
          cases h
        | ok answer =>
          simp only [hr, pure, EStateM.pure] at h
          cases h
          exact (walks_of_requests hr).1
    case invertedBegin =>
      obtain ⟨found, _, hr⟩ := of_bind_pure h
      cases hr
      split <;> decide
    case escaped | unescaped | inclusion =>
      obtain ⟨_, _, hr⟩ := of_bind_pure h
      cases hr
      decide
    case invalid | sectionEnd | comment | switch =>
      cases h
      decide

theorem completed_of_performs {options : RenderOptions} {host : Host ω ε ν} {graph : Graph ν}
    {task : Walk.Task (Hook ν)} {pass after : Pass ω} {events : List (Event (Hook ν))}
    {ending : Ending} (h : (visitor options host graph).Performs task pass events ending after) :
    ending = .completed := by
  induction h with
  | done | idle => rfl
  | stop hv => exact absurd rfl (control_of_visit hv)
  | cut _ _ _ ih | abandon _ _ _ ih => exact ih
  | next _ _ _ _ _ ih | proceed _ _ _ _ _ ih => exact ih

end Render

/-! ## The two sections together -/

/-- A visit of the node changes nothing, and these are the walks that it leads to. -/
def Walk.Visitor.LeadsTo {σ η : Type} (visitor : Visitor σ ε η) (node : Node) (depth : Int) (state : σ)
    (walks : List (Request η)) : Prop :=
  ∃ control requests, control ≠ .stop ∧
    visitor.visit node depth state = .ok (control, requests) state ∧
    control.walks node depth requests = walks

namespace Walk.Visitor.LeadsTo

variable {σ η : Type} {visitor : Visitor σ ε η} {node : Node} {rest : List Node} {depth : Int}
  {state middle : σ} {walks : List (Request η)} {result : EStateM.Result ε σ Ending}

theorem asks (h : visitor.LeadsTo node depth state walks) (hw : visitor.Carries walks state result) :
    visitor.Asks node depth (visitor.visit node depth state) result := by
  obtain ⟨control, requests, hc, hv, rfl⟩ := h
  rw [hv]
  exact (asks_ok hc).2 hw

theorem yields_cons (h : visitor.LeadsTo node depth state walks)
    (hw : visitor.Carries walks state (.ok .completed middle))
    (hn : visitor.Yields rest depth middle result) :
    visitor.Yields (node :: rest) depth state result :=
  yields_cons_of_completed (h.asks hw) hn

theorem yields_singleton (h : visitor.LeadsTo node depth state walks)
    (hw : visitor.Carries walks state result) : visitor.Yields [node] depth state result := by
  rw [← andThen_completed result]
  exact Visitor.yields_cons (h.asks hw) fun after _ => yields_nil depth after

end Walk.Visitor.LeadsTo

section Complement

variable {context : Context κ δ ν} {outlet : Outlet ω ε} {embed : δ → ε}

theorem Context.Steady.lift_lookup (h : context.Steady) {name : String} {pass : Pass (κ × ω)}
    {found : Option (Value ν)} {state : κ} (hl : context.lookup name pass.world.1 = .ok found state) :
    lift ((outlet.over context embed).context.lookup name) pass = .ok found pass := by
  have hstate := h.lookup name pass.world.1
  rw [hl] at hstate
  cases hstate
  simp only [lift, Outlet.over, Context.zoom, Stencil.zoom, hl]

theorem Context.Steady.lift_lookup_error (h : context.Steady) {name : String} {pass : Pass (κ × ω)}
    {error : δ} {state : κ} (hl : context.lookup name pass.world.1 = .error error state) :
    lift ((outlet.over context embed).context.lookup name) pass = .error (.host (embed error)) pass := by
  have hstate := h.lookup name pass.world.1
  rw [hl] at hstate
  cases hstate
  simp only [lift, Outlet.over, Context.zoom, Stencil.zoom, hl]

theorem Outlet.isScoped_over (outlet : Outlet ω ε) (context : Context κ δ ν) (embed : δ → ε) :
    (outlet.over context embed).isScoped = context.scopes.isSome :=
  Option.isSome_map

namespace Render

variable {host : Host ω ε ν} {options : RenderOptions} {graph : Graph ν} {name : String}
  {found : Option (Value ν)} {pass : Pass ω}

/-- A section whose name has been looked up is rendered as often as that says, unless there is an item
that it cannot be rendered for. -/
theorem leadsTo_section (hl : lift (host.context.lookup name) pass = .ok found pass) (position : Int)
    (body : List Node) (depth : Int) :
    (∃ error, (visitor options host graph).visit ⟨.tag ⟨name, .sectionBegin, position⟩, body⟩ depth
        pass = .error error pass) ∨
      ∃ walks, (visitor options host graph).LeadsTo ⟨.tag ⟨name, .sectionBegin, position⟩, body⟩ depth
          pass walks ∧
        walks.length = renderings host.isScoped found ∧
        ∀ walk ∈ walks, walk.nodes = body ∧ walk.depth = depth + 1 := by
  have hvisit : visit options host graph ⟨.tag ⟨name, .sectionBegin, position⟩, body⟩ depth pass = _ :=
    congrFun (visit_of_section rfl rfl depth) pass
  simp only [bind, EStateM.bind, hl] at hvisit
  -- the lookup has succeeded, so an item without a value is all that the visit can fail for
  cases hr : (SectionPlan.of host.isScoped found).requests graph
      ⟨.tag ⟨name, .sectionBegin, position⟩, body⟩ depth with
  | error error =>
    rw [hr] at hvisit
    exact .inl ⟨_, hvisit⟩
  | ok answer =>
    rw [hr] at hvisit
    obtain ⟨hc, hlength, hwalks⟩ := walks_of_requests hr
    exact .inr ⟨_, ⟨answer.1, answer.2, hc, hvisit, rfl⟩, hlength, hwalks⟩

theorem visit_section_of_error {error : RenderError ε}
    (hl : lift (host.context.lookup name) pass = .error error pass) (position : Int) (body : List Node)
    (depth : Int) :
    (visitor options host graph).visit ⟨.tag ⟨name, .sectionBegin, position⟩, body⟩ depth pass =
      .error error pass := by
  have hvisit : visit options host graph ⟨.tag ⟨name, .sectionBegin, position⟩, body⟩ depth pass = _ :=
    congrFun (visit_of_section rfl rfl depth) pass
  simp only [bind, EStateM.bind, hl] at hvisit
  exact hvisit

theorem leadsTo_inverted (hl : lift (host.context.lookup name) pass = .ok found pass)
    (position : Int) (body : List Node) (depth : Int) :
    (visitor options host graph).LeadsTo ⟨.tag ⟨name, .invertedBegin, position⟩, body⟩ depth pass
      (if renderings host.isScoped found = 0 then [⟨body, depth + 1, none⟩] else []) := by
  have hvisit : visit options host graph ⟨.tag ⟨name, .invertedBegin, position⟩, body⟩ depth pass = _ :=
    congrFun (visit_of_inverted rfl rfl depth) pass
  simp only [bind, EStateM.bind, hl] at hvisit
  have habsent := isAbsent_iff host.isScoped found
  by_cases hzero : renderings host.isScoped found = 0
  · rw [if_pos (habsent.2 hzero)] at hvisit
    rw [if_pos hzero]
    exact ⟨.proceed, [], nofun, hvisit, rfl⟩
  · rw [if_neg fun ha => hzero (habsent.1 ha)] at hvisit
    rw [if_neg hzero]
    exact ⟨.skip, [], nofun, hvisit, rfl⟩

end Render

/-- **Of a section and the inverted section of its name, one is rendered and the other is not.** Unless
the value of the name cannot be had, which is an error before anything has been done, the body of the
section is rendered as often as the value says. What the name is found to be is the same after that, and
the body of the inverted section is rendered once if the other was not rendered at all, and not at all
otherwise. Nothing else is done for the two. -/
theorem sections_complementary (hs : context.Steady) (outlet : Outlet ω ε) (embed : δ → ε)
    (options : RenderOptions) (graph : Graph ν) (name : String) (position elsewhere : Int)
    (body other : List Node) (depth : Int) (pass : Pass (κ × ω)) :
    let visitor := visitor options (outlet.over context embed) graph
    let plain : Node := ⟨.tag ⟨name, .sectionBegin, position⟩, body⟩
    let inverted : Node := ⟨.tag ⟨name, .invertedBegin, elsewhere⟩, other⟩
    (∃ error, visitor.visit plain depth pass = .error error pass) ∨
      ∃ found walks, context.lookup name pass.world.1 = .ok found pass.world.1 ∧
        visitor.LeadsTo plain depth pass walks ∧
        walks.length = renderings context.scopes.isSome found ∧
        (∀ walk ∈ walks, walk.nodes = body ∧ walk.depth = depth + 1) ∧
        ∀ ending middle, visitor.Carries walks pass (.ok ending middle) →
          let complement := if renderings context.scopes.isSome found = 0 then [⟨other, depth + 1, none⟩]
            else []
          context.lookup name middle.world.1 = .ok found middle.world.1 ∧
            visitor.LeadsTo inverted depth middle complement ∧
            ∀ result, visitor.Carries complement middle result →
              visitor.Yields [plain, inverted] depth pass result := by
  intro visitor plain inverted
  cases hl : context.lookup name pass.world.1 with
  | error error state =>
    exact .inl ⟨_, visit_section_of_error (hs.lift_lookup_error hl) position body depth⟩
  | ok found state =>
    have hstate := hs.lookup name pass.world.1
    rw [hl] at hstate
    cases hstate
    rcases leadsTo_section (hs.lift_lookup hl) position body depth with
      herror | ⟨walks, hleads, hlength, hwalks⟩
    · exact .inl herror
    · rw [outlet.isScoped_over] at hlength
      refine .inr ⟨found, walks, rfl, hleads, hlength, hwalks, fun ending middle hcarries => ?_⟩
      obtain ⟨events, hp⟩ := Visitor.performs_of_carries hcarries
      obtain rfl := completed_of_performs hp
      -- the context is back where it was, so it finds what it found before
      have hagain : context.lookup name middle.world.1 = .ok found middle.world.1 := by
        rw [hs.of_performs hp]
        exact hl
      have hinverted : visitor.LeadsTo inverted depth middle _ :=
        leadsTo_inverted (hs.lift_lookup hagain) elsewhere other depth
      rw [outlet.isScoped_over] at hinverted
      refine ⟨hagain, hinverted, fun result hresult => ?_⟩
      exact hleads.yields_cons hcarries (hinverted.yields_singleton hresult)

end Complement

/-- A list of two texts. -/
def lettersGraph : Graph Unit := fun _ => .list [.scalar (.text "a"), .scalar (.text "b")]

/-- A mapping with the list in it. -/
def lettersStack : ContextStack Unit := ⟨.object (.mapping [(.text "xs", .container ())]), []⟩

/-- What renders a section and its complement over the list. -/
abbrev lettersVisitor : Visitor (Pass (ContextStack Unit × List String)) (RenderError ContextError)
    (Hook Unit) :=
  visitor {} (Renderer.listOutlet.over (Context.ofStack lettersGraph) id) lettersGraph

/-- A rendering that has written these texts, latest first, with the mapping on the stack. -/
def lettersPass (written : List String) : Pass (ContextStack Unit × List String) :=
  ⟨[], 0, (lettersStack, written)⟩

/-- The body of the section is one text, and it is written wherever the section is rendered. -/
theorem yields_letter (pass : Pass (ContextStack Unit × List String)) :
    lettersVisitor.Yields [⟨.text "x" 7, []⟩] 1 pass
      (.ok .completed { pass with world := (pass.world.1, "x" :: pass.world.2) }) := by
  have hleads : lettersVisitor.Asks ⟨.text "x" 7, []⟩ 1 (lettersVisitor.visit ⟨.text "x" 7, []⟩ 1 pass)
      (.ok .completed { pass with world := (pass.world.1, "x" :: pass.world.2) }) :=
    Visitor.carries_cons_hookless (Visitor.yields_nil 2 _) fun _ _ => Visitor.carries_nil _
  exact Visitor.yields_cons_of_completed hleads (Visitor.yields_nil 1 _)

/-- The scope of an item is entered, the text is written, and the scope is left. -/
theorem carries_letter (value : Value Unit) (written : List String) {rest : List (Request (Hook Unit))}
    {result : EStateM.Result (RenderError ContextError) (Pass (ContextStack Unit × List String)) Ending}
    (hrest : lettersVisitor.Carries rest (lettersPass ("x" :: written)) result) :
    lettersVisitor.Carries (⟨[⟨.text "x" 7, []⟩], 1, some (.scope value)⟩ :: rest)
      (lettersPass written) result := by
  let inside (written : List String) : Pass (ContextStack Unit × List String) :=
    ⟨[], 0, (lettersStack.push value, written)⟩
  have henter : lettersVisitor.enterHook (some (.scope value)) (lettersPass written) =
      .ok () (inside written) := rfl
  have hyields : lettersVisitor.Yields [⟨.text "x" 7, []⟩] 1 (inside written)
      (.ok .completed (inside ("x" :: written))) := yields_letter _
  have hleave : lettersVisitor.leaveHook (some (.scope value)) (inside ("x" :: written)) =
      .ok () (lettersPass ("x" :: written)) := rfl
  have hcarries : lettersVisitor.Carries (⟨[⟨.text "x" 7, []⟩], 1, some (.scope value)⟩ :: rest)
      (lettersPass written)
      (andThen (withState (lettersPass ("x" :: written)) (.ok .completed (inside ("x" :: written))))
        fun _ => result) := Visitor.carries_cons henter hyields hleave fun _ => hrest
  exact hcarries

/-- The section is rendered for either of the two texts, the name is found to be the list again, and the
inverted section is not rendered. -/
theorem sections_complementary_letters :
    let plain : Node := ⟨.tag ⟨"xs", .sectionBegin, 0⟩, [⟨.text "x" 7, []⟩]⟩
    let inverted : Node := ⟨.tag ⟨"xs", .invertedBegin, 15⟩, [⟨.text "y" 22, []⟩]⟩
    ∃ walks, lettersVisitor.LeadsTo plain 0 (lettersPass []) walks ∧ walks.length = 2 ∧
      lettersVisitor.Carries walks (lettersPass []) (.ok .completed (lettersPass ["x", "x"])) ∧
      lettersVisitor.LeadsTo inverted 0 (lettersPass ["x", "x"]) [] ∧
      lettersVisitor.Yields [plain, inverted] 0 (lettersPass [])
        (.ok .completed (lettersPass ["x", "x"])) := by
  intro plain inverted
  have hlookup : (Context.ofStack lettersGraph).lookup "xs" lettersStack =
      .ok (some (.list [.scalar (.text "a"), .scalar (.text "b")])) lettersStack := rfl
  rcases sections_complementary (Context.steady_ofStack lettersGraph) Renderer.listOutlet id {}
      lettersGraph "xs" 0 15 [⟨.text "x" 7, []⟩] [⟨.text "y" 22, []⟩] 0 (lettersPass []) with
    ⟨error, herror⟩ | ⟨found, walks, hl, hleads, hlength, _, hwalks⟩
  · cases herror
  · rw [show (lettersPass []).world.1 = lettersStack from rfl, hlookup] at hl
    cases hl
    -- the section asks for one walk over the text in the scope of each item
    have hcarries : lettersVisitor.Carries walks (lettersPass [])
        (.ok .completed (lettersPass ["x", "x"])) := by
      obtain ⟨control, requests, _, hvisit, rfl⟩ := hleads
      cases hvisit
      exact carries_letter _ [] (carries_letter _ ["x"] (Visitor.carries_nil _))
    obtain ⟨_, hinverted, hyields⟩ := hwalks _ _ hcarries
    exact ⟨walks, hleads, hlength, hcarries, hinverted, hyields _ (Visitor.carries_nil _)⟩

end Stencil

import Stencil.Render.Visit

/-!
# Every rendering halts

A walk over nodes halts if what waits on the stack below it halts. The proof is an induction on how
many more inclusions may be nested, and within that on the number of nodes: the children of a node
and the body of a section are fewer nodes, while a partial can be any document but is only walked
with one more inclusion in progress. Once the limit is reached, no partial is walked at all.

The argument needs three facts about the visitor: a visit keeps the number of inclusions, entering
or leaving a scope does so too, and a partial is only requested below the limit.
-/

set_option autoImplicit false

namespace Stencil.Render

variable {ω ε ν : Type}

/-- An action that, when it succeeds, leaves the number of inclusions as it was. -/
def Keeps {α : Type} (action : EStateM (RenderError ε) (Pass ω) α) : Prop :=
  ∀ pass result after, action pass = .ok result after → after.inclusions = pass.inclusions

section Keeps

variable {α β : Type}

theorem keeps_pure (result : α) :
    Keeps (pure result : EStateM (RenderError ε) (Pass ω) α) := by
  intro pass other after h
  cases h
  rfl

theorem keeps_get : Keeps (get : EStateM (RenderError ε) (Pass ω) (Pass ω)) := by
  intro pass other after h
  cases h
  rfl

theorem keeps_throw (error : RenderError ε) :
    Keeps (throw error : EStateM (RenderError ε) (Pass ω) α) := by
  intro pass other after h
  cases h

theorem keeps_modify {f : Pass ω → Pass ω} (hf : ∀ pass, (f pass).inclusions = pass.inclusions) :
    Keeps (modify f : EStateM (RenderError ε) (Pass ω) PUnit) := by
  intro pass other after h
  cases h
  exact hf pass

theorem keeps_bind {first : EStateM (RenderError ε) (Pass ω) α}
    {second : α → EStateM (RenderError ε) (Pass ω) β} (hf : Keeps first)
    (hs : ∀ result, Keeps (second result)) : Keeps (first >>= second) := by
  intro pass result after h
  simp only [bind, EStateM.bind] at h
  split at h
  · next middle pass' hm => rw [hs middle pass' result after h, hf pass middle pass' hm]
  · cases h

theorem keeps_lift (action : EStateM ε ω α) : Keeps (lift action) := by
  intro pass result after h
  simp only [lift, zoom] at h
  split at h <;> cases h
  rfl

end Keeps

variable (options : RenderOptions) (host : Host ω ε ν) (graph : Graph ν)

theorem keeps_note (notice : Notice) : Keeps (note host notice) :=
  keeps_modify fun _ => rfl

theorem keeps_notes (notices : List Notice) : Keeps (notices.forM (note host)) := by
  induction notices with
  | nil => exact keeps_pure ()
  | cons notice rest ih => exact keeps_bind (keeps_note host notice) fun _ => ih

theorem keeps_partialDocument (name : String) : Keeps (partialDocument host name) := by
  refine keeps_bind keeps_get fun pass => ?_
  split
  · exact keeps_pure _
  · refine keeps_bind (keeps_lift _) fun source => ?_
    split
    · exact keeps_bind (keeps_note host _) fun _ =>
        keeps_bind (keeps_modify fun _ => rfl) fun _ => keeps_pure _
    · refine keeps_bind (keeps_notes host _) fun _ => ?_
      split
      · exact keeps_throw _
      · exact keeps_bind (keeps_modify fun _ => rfl) fun _ =>
          keeps_bind (keeps_note host _) fun _ => keeps_pure _

theorem keeps_substitute (name : String) (escape : Bool) :
    Keeps (substitute host name escape) := by
  unfold substitute
  split
  · exact keeps_pure _
  · refine keeps_bind (keeps_lift _) fun found => ?_
    split
    · exact keeps_pure _
    · exact keeps_lift _

theorem keeps_plan (name : String) : Keeps (plan host name) :=
  keeps_bind (keeps_lift _) fun _ => keeps_pure _

theorem keeps_requestPartial (name : String) (depth : Int) :
    Keeps (requestPartial options host name depth) := by
  refine keeps_bind keeps_get fun pass => ?_
  split
  · exact keeps_throw _
  · refine keeps_bind (keeps_partialDocument host name) fun document => ?_
    split <;> exact keeps_pure _

theorem keeps_visit (node : Node) (depth : Int) : Keeps (visit options host graph node depth) := by
  unfold visit
  split
  · exact keeps_pure _
  · exact keeps_bind (keeps_lift _) fun _ => keeps_pure _
  · split
    · exact keeps_bind (keeps_substitute host _ _) fun _ => keeps_pure _
    · exact keeps_bind (keeps_substitute host _ _) fun _ => keeps_pure _
    · refine keeps_bind (keeps_plan host _) fun plan => ?_
      split
      · exact keeps_pure _
      · exact keeps_throw _
    · exact keeps_bind (keeps_plan host _) fun _ => keeps_pure _
    · exact keeps_bind (keeps_requestPartial options host _ _) fun _ => keeps_pure _
    · exact keeps_pure _
    · exact keeps_pure _
    · exact keeps_pure _
    · exact keeps_pure _

theorem keeps_push (value : Value ν) : Keeps (enter host (.scope value)) := by
  unfold enter
  dsimp only
  split
  · exact keeps_lift _
  · exact keeps_pure _

theorem keeps_pop (value : Value ν) : Keeps (leave host (.scope value)) := by
  unfold leave
  dsimp only
  split
  · exact keeps_bind (keeps_lift _) fun _ => keeps_pure _
  · exact keeps_pure _

/-- What a visit may request: the body of the node in a scope, or any nodes as an inclusion, if one
more of these may be in progress. -/
def Allowed (node : Node) (pass : Pass ω) (request : Walk.Request (Hook ν)) : Prop :=
  (request.nodes = node.children ∧ ∃ value, request.hook = some (.scope value)) ∨
    (request.hook = some .inclusion ∧ (pass.inclusions : Int) < options.inclusionLimit)

theorem get_apply (pass : Pass ω) :
    (get : EStateM (RenderError ε) (Pass ω) (Pass ω)) pass = .ok pass pass := rfl

theorem allowed_of_requestPartial {name : String} {depth : Int} {pass after : Pass ω}
    {requests : List (Walk.Request (Hook ν))} (node : Node)
    (h : requestPartial options host name depth pass = .ok requests after) :
    ∀ request ∈ requests, Allowed options node pass request := by
  simp only [requestPartial, bind, EStateM.bind, get_apply] at h
  split at h
  · cases h
  · next hlimit =>
    simp only [EStateM.bind] at h
    split at h
    · split at h <;> cases h
      · simp
      · intro request hr
        obtain rfl := List.mem_singleton.1 hr
        exact .inr ⟨rfl, by omega⟩
    · cases h

theorem allowed_of_requests {plan : SectionPlan ν} {node : Node} {depth : Int} (pass : Pass ω)
    {control : Walk.Control} {requests : List (Walk.Request (Hook ν))}
    (h : plan.requests graph node depth = .ok (control, requests)) :
    ∀ request ∈ requests, Allowed options node pass request := by
  cases plan with
  | absent => cases h; simp
  | plain => cases h; simp
  | inScopes value =>
    cases hs : sectionScopes graph value with
    | error error => simp [SectionPlan.requests, hs, Except.map] at h
    | ok values =>
      simp only [SectionPlan.requests, hs, Except.map, Except.ok.injEq, Prod.mk.injEq] at h
      obtain ⟨_, rfl⟩ := h
      intro request hr
      obtain ⟨value, _, rfl⟩ := List.mem_map.1 hr
      exact .inl ⟨rfl, value, rfl⟩

/-- A successful action followed by a pure answer. -/
theorem of_bind_pure {α β : Type} {first : EStateM (RenderError ε) (Pass ω) α} {f : α → β}
    {pass after : Pass ω} {result : β} (h : (first >>= fun a => pure (f a)) pass = .ok result after) :
    ∃ middle, first pass = .ok middle after ∧ result = f middle := by
  simp only [bind, EStateM.bind, pure, EStateM.pure] at h
  split at h
  · next middle pass' hm =>
    cases h
    exact ⟨middle, hm, rfl⟩
  · cases h

theorem allowed_of_visit {node : Node} {depth : Int} {pass after : Pass ω}
    {control : Walk.Control} {requests : List (Walk.Request (Hook ν))}
    (h : visit options host graph node depth pass = .ok (control, requests) after) :
    ∀ request ∈ requests, Allowed options node pass request := by
  cases hl : node.label with
  | root =>
    simp only [visit, hl] at h
    cases h
    simp
  | text content position =>
    simp only [visit, hl] at h
    obtain ⟨_, _, hr⟩ := of_bind_pure h
    cases hr
    simp
  | tag tag =>
    cases ht : tag.type <;> simp only [visit, hl, ht] at h
    case sectionBegin =>
      simp only [bind, EStateM.bind] at h
      split at h
      · next plan _ _ =>
        cases hr : plan.requests graph node depth with
        | ok answer =>
          simp only [hr] at h
          cases h
          exact allowed_of_requests options graph pass hr
        | error error =>
          simp only [hr] at h
          cases h
      · cases h
    case inclusion =>
      obtain ⟨_, hp, hr⟩ := of_bind_pure h
      cases hr
      exact allowed_of_requestPartial options host node hp
    case escaped | unescaped | invertedBegin =>
      obtain ⟨_, _, hr⟩ := of_bind_pure h
      cases hr
      simp
    case invalid | sectionEnd | comment | switch =>
      cases h
      simp

/-! ## Halting -/

/-- The stack halts whenever it is reached with this many inclusions in progress. -/
def HaltsAt (frames : List (Walk.Frame (Hook ν))) (inclusions : Nat) : Prop :=
  ∀ pass : Pass ω, pass.inclusions = inclusions →
    (visitor options host graph).Halts ⟨frames, pass⟩

/-- How many inclusions are in progress once a hook is entered. -/
def countInside (inclusions : Nat) : Option (Hook ν) → Nat
  | some .inclusion => inclusions + 1
  | _ => inclusions

theorem inclusions_of_enterHook {hook : Option (Hook ν)} {pass after : Pass ω} {u : Unit}
    (h : (visitor options host graph).enterHook hook pass = .ok u after) :
    after.inclusions = countInside pass.inclusions hook := by
  match hook with
  | none => exact keeps_pure _ pass u after h
  | some (.scope value) => exact keeps_push host value pass u after h
  | some .inclusion =>
    cases h
    rfl

theorem inclusions_of_leaveHook {hook : Option (Hook ν)} {pass after : Pass ω} {u : Unit}
    {inclusions : Nat} (hin : pass.inclusions = countInside inclusions hook)
    (h : (visitor options host graph).leaveHook hook pass = .ok u after) :
    after.inclusions = inclusions := by
  match hook with
  | none => rw [keeps_pure _ pass u after h, hin]; rfl
  | some (.scope value) => rw [keeps_pop host value pass u after h, hin]; rfl
  | some .inclusion =>
    cases h
    simp only [countInside] at hin
    simp [hin]

/-- A frame that has been entered halts if a frame of that kind with one node less does, after
whatever the first node asks for, and if what is below it does. -/
theorem haltsAt_of_entered {frame : Walk.Frame (Hook ν)} {outer : List (Walk.Frame (Hook ν))}
    {inclusions : Nat} (hentered : frame.entered = true)
    (houter : HaltsAt options host graph outer inclusions)
    (hvisit : ∀ node rest, frame.pending = node :: rest →
      ∀ pass : Pass ω, pass.inclusions = countInside inclusions frame.hook →
      ∀ control requests after,
        visit options host graph node frame.depth pass = .ok (control, requests) after →
        (visitor options host graph).Halts
          ⟨control.frames node frame.depth requests ++ { frame with pending := rest } :: outer,
            after⟩) :
    HaltsAt options host graph (frame :: outer) (countInside inclusions frame.hook) := by
  obtain ⟨pending, depth, hook, entered⟩ := frame
  obtain rfl : entered = true := hentered
  intro pass hpass
  cases turn : (visitor options host graph).step ⟨⟨pending, depth, hook, true⟩ :: outer, pass⟩ with
  | off verdict last => exact Walk.Visitor.halts_of_off turn
  | on next =>
    refine Walk.Visitor.halts_of_on turn ?_
    simp only [Walk.Visitor.step, if_true] at turn
    split at turn
    · split at turn <;> cases turn
      next u state hl =>
      exact houter state (inclusions_of_leaveHook options host graph hpass hl)
    · next node rest =>
      split at turn
      · cases turn
      · next control requests state _ hv =>
        cases turn
        exact hvisit node rest rfl pass hpass control requests state hv
      · cases turn

/-- A frame that waits to be entered halts if it does once it is entered. -/
theorem haltsAt_of_waiting {frame : Walk.Frame (Hook ν)} {outer : List (Walk.Frame (Hook ν))}
    {inclusions : Nat} (hwaiting : frame.entered = false)
    (hentered : HaltsAt options host graph ({ frame with entered := true } :: outer)
      (countInside inclusions frame.hook)) :
    HaltsAt options host graph (frame :: outer) inclusions := by
  intro pass hpass
  cases turn : (visitor options host graph).step ⟨frame :: outer, pass⟩ with
  | off verdict last => exact Walk.Visitor.halts_of_off turn
  | on next =>
    refine Walk.Visitor.halts_of_on turn ?_
    simp only [Walk.Visitor.step, hwaiting, Bool.false_eq_true, if_false] at turn
    split at turn <;> cases turn
    next u state he =>
    exact hentered state (by rw [inclusions_of_enterHook options host graph he, hpass])

/-- Frames that each halt above anything that does, halt together above it. -/
theorem haltsAt_append {frames outer : List (Walk.Frame (Hook ν))} {inclusions : Nat}
    (houter : HaltsAt options host graph outer inclusions)
    (hframes : ∀ frame ∈ frames, ∀ below, HaltsAt options host graph below inclusions →
      HaltsAt options host graph (frame :: below) inclusions) :
    HaltsAt options host graph (frames ++ outer) inclusions := by
  induction frames with
  | nil => exact houter
  | cons frame rest ih =>
    exact hframes frame (List.mem_cons_self ..) _
      (ih fun other hm => hframes other (List.mem_cons_of_mem _ hm))

/-- A frame over nodes halts above anything that does, if as many more inclusions as `room` may be
nested inside it. -/
theorem haltsAt_frame (room count : Nat) :
    ∀ (frame : Walk.Frame (Hook ν)) (inclusions : Nat),
      frame.entered = true →
      (options.inclusionLimit - countInside inclusions frame.hook).toNat ≤ room →
      Node.countAll frame.pending ≤ count →
      ∀ outer, HaltsAt options host graph outer inclusions →
        HaltsAt options host graph (frame :: outer) (countInside inclusions frame.hook) := by
  induction room using Nat.strongRecOn generalizing count with
  | ind room ihRoom =>
    induction count using Nat.strongRecOn with
    | ind count ihCount =>
      intro frame inclusions hentered hroom hcount outer houter
      refine haltsAt_of_entered options host graph hentered houter ?_
      intro node rest hpending pass hpass control requests after hv
      have hkeeps := keeps_visit options host graph node frame.depth pass _ after hv
      have hallowed := allowed_of_visit options host graph hv
      have hnode := Node.count_eq node
      have hsum : Node.countAll frame.pending = node.count + Node.countAll rest := by
        rw [hpending, Node.countAll]
      -- what is left of the frame itself
      have hrest : HaltsAt options host graph ({ frame with pending := rest } :: outer)
          (countInside inclusions frame.hook) :=
        ihCount (Node.countAll rest) (by omega) { frame with pending := rest } inclusions
          hentered hroom (Nat.le_refl _) outer houter
      -- a walk over the children of the node, in the scope of a hook that is no inclusion
      have hbody (hook : Option (Hook ν)) (depth : Int)
          (hhook : countInside pass.inclusions hook = pass.inclusions) (below)
          (hbelow : HaltsAt options host graph below pass.inclusions) :
          HaltsAt options host graph (⟨node.children, depth, hook, false⟩ :: below)
            pass.inclusions :=
        haltsAt_of_waiting options host graph rfl
          (ihCount (Node.countAll node.children) (by omega) ⟨node.children, depth, hook, true⟩
            pass.inclusions rfl (by rw [hhook, hpass]; exact hroom) (Nat.le_refl _) below hbelow)
      refine haltsAt_append options host graph (hpass ▸ hrest) ?_ after hkeeps
      have hrequests : ∀ waiting ∈ requests.map Walk.Request.frame, ∀ below,
          HaltsAt options host graph below pass.inclusions →
          HaltsAt options host graph (waiting :: below) pass.inclusions := by
        intro waiting hm below hbelow
        obtain ⟨request, hr, rfl⟩ := List.mem_map.1 hm
        rcases hallowed request hr with ⟨hnodes, value, hhook⟩ | ⟨hhook, hlimit⟩
        · simp only [Walk.Request.frame, hnodes, hhook]
          exact hbody _ _ rfl below hbelow
        · simp only [Walk.Request.frame, hhook]
          refine haltsAt_of_waiting options host graph rfl ?_
          refine ihRoom (options.inclusionLimit - (pass.inclusions + 1 : Nat)).toNat ?_
            (Node.countAll request.nodes) ⟨request.nodes, request.depth, some .inclusion, true⟩
            pass.inclusions rfl (Nat.le_refl _) (Nat.le_refl _) below hbelow
          rw [← hpass] at hroom
          omega
      cases control with
      | proceed =>
        intro waiting hm
        rcases List.mem_cons.1 hm with rfl | hm
        · exact hbody none _ rfl
        · exact hrequests waiting hm
      | skip => exact hrequests
      | stop => intro waiting hm; cases hm

/-- A rendering halts, whatever the document, the data, the options, the partials and the state it
starts from. -/
theorem halts (nodes : List Node) (pass : Pass ω) :
    (visitor options host graph).Halts (Walk.Visitor.start nodes pass) := by
  refine haltsAt_of_waiting options host graph rfl ?_ pass rfl
  refine haltsAt_frame options host graph _ _ ⟨nodes, 0, none, true⟩ pass.inclusions rfl
    (Nat.le_refl _) (Nat.le_refl _) [] ?_
  intro after _
  have turn : (visitor options host graph).step ⟨[], after⟩ = .off (.ok .completed) ⟨[], after⟩ := rfl
  exact Walk.Visitor.halts_of_off turn

end Stencil.Render

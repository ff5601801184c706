import Stencil.Proofs.Render.Records
import Stencil.Proofs.Render.Session

/-!
# A sink that fails

`Host.capped` is a host whose sink takes some number of chunks and fails at the next one. A rendering to
it does what it does to the sink that is capped, up to the first visit that writes a chunk too many
(`visit_eq_or_spills`). That visit fails, and the scopes that are open are left. So the chunks that were
taken are the first of those that are written without the cap, and what the loader was asked for is the
beginning of what it is asked for then.

What a renderer knows of partials after such a failure it has learned from the answers it was given. So
the session goes on from there: the same errand, with the sink working again, is done as it would have
been done in the first place (`Session.render_capped`).
-/

set_option autoImplicit false

namespace Stencil

open Walk

variable {ω ε ν α β : Type}

/-- The same host with all calls on record, and with a sink that takes so many chunks and no more. -/
def Host.capped (host : Host ω ε ν) (room : Nat) (error : ε) : Host (ω × List (Call ν)) ε ν :=
  { host.recorded with
    write := fun text whole =>
      if (chunks whole.2).length < room then host.recorded.write text whole else .error error whole }

section Sink

variable {host : Host ω ε ν} {room : Nat} {error : ε}

theorem write_capped_of_lt {text : String} {whole : ω × List (Call ν)}
    (h : (chunks whole.2).length < room) :
    (host.capped room error).write text whole = host.recorded.write text whole :=
  if_pos h

theorem write_capped_of_le {text : String} {whole : ω × List (Call ν)}
    (h : room ≤ (chunks whole.2).length) :
    (host.capped room error).write text whole = .error error whole :=
  if_neg (Nat.not_lt.2 h)

theorem Host.context_capped (host : Host ω ε ν) (room : Nat) (error : ε) :
    (host.capped room error).context = host.recorded.context := rfl

theorem Host.Stacks.capped {holds : List (Value ν) → ω → Prop} (h : host.Stacks holds) :
    (host.capped room error).Stacks fun pushed whole => holds pushed whole.1 where
  preserves pushed := {
    lookup := (h.recorded.preserves pushed).lookup
    write := by
      intro text whole hw
      by_cases hroom : (chunks whole.2).length < room
      · rw [write_capped_of_lt hroom]
        exact (h.recorded.preserves pushed).write text hw
      · rw [write_capped_of_le (Nat.not_lt.1 hroom)]
        exact hw
    load := (h.recorded.preserves pushed).load
    note := (h.recorded.preserves pushed).note }
  push := h.recorded.push
  refuse := h.recorded.refuse
  pop := h.recorded.pop

/-- The sink never takes more chunks than there is room for. -/
theorem capped_preserves_room :
    (host.capped room error).Preserves fun whole => (chunks whole.2).length ≤ room where
  lookup name whole h := by
    show (chunks (stateOf (recording (.lookup name) _ whole)).2).length ≤ room
    rw [calls_stateOf_recording, chunks_add _ rfl]
    exact h
  write text whole h := by
    -- only a write adds a chunk, and the cap lets it do so only if one more fits
    by_cases hroom : (chunks whole.2).length < room
    · rw [write_capped_of_lt hroom]
      show (chunks (stateOf (recording (.write text) _ whole)).2).length ≤ room
      rw [calls_stateOf_recording, chunks_write, List.length_append]
      exact hroom
    · rw [write_capped_of_le (Nat.not_lt.1 hroom)]
      exact h
  load name whole h := by
    show (chunks (stateOf (recording (.load name) _ whole)).2).length ≤ room
    rw [calls_stateOf_recording, chunks_add _ rfl]
    exact h
  note notice whole h := by
    show (chunks (whole.2 ++ [.note notice])).length ≤ room
    rw [chunks_add _ rfl]
    exact h

end Sink

namespace Render

/-! ## A chunk too many -/

/-- An action writes a chunk for which there is no room. Without the cap it writes that chunk, with the
cap it fails, and then it has written and loaded nothing. -/
structure Spills (room : Nat) (error : ε) (pass : Pass (ω × List (Call ν)))
    (full cut : EStateM.Result (RenderError ε) (Pass (ω × List (Call ν))) α) : Prop where
  room_le : room ≤ (chunks pass.world.2).length
  cut : ∃ after, cut = .error (.host error) after ∧ chunks after.world.2 = chunks pass.world.2 ∧
    loads after.world.2 = loads pass.world.2 ∧ after.cache = pass.cache
  full : (chunks pass.world.2).length < (chunks (stateOf full).world.2).length

variable {room : Nat} {error : ε} {pass : Pass (ω × List (Call ν))}

/-- What is done with the answer of an action does not matter when that fails. -/
theorem Spills.bind_pure {full cut : Action (ω × List (Call ν)) ε α}
    (h : Spills room error pass (full pass) (cut pass)) (f : α → β) :
    Spills room error pass ((full >>= fun answer => pure (f answer)) pass)
      ((cut >>= fun answer => pure (f answer)) pass) := by
  obtain ⟨hroom, ⟨after, hcut, hafter⟩, hfull⟩ := h
  refine ⟨hroom, ⟨after, ?_, hafter⟩, ?_⟩
  · simp only [bind, EStateM.bind, hcut]
  · rw [stateOf_bind_pure]
    exact hfull

variable (options : RenderOptions) (host : Host ω ε ν) (graph : Graph ν)

theorem write_eq_or_spills (room : Nat) (error : ε) (text : String)
    (pass : Pass (ω × List (Call ν))) :
    lift (host.recorded.write text) pass = lift ((host.capped room error).write text) pass ∨
      Spills room error pass (lift (host.recorded.write text) pass)
        (lift ((host.capped room error).write text) pass) := by
  by_cases hroom : (chunks pass.world.2).length < room
  · left
    simp only [lift, zoom, write_capped_of_lt hroom]
  · right
    have hle := Nat.not_lt.1 hroom
    refine ⟨hle, ⟨pass, lift_of_error (write_capped_of_le hle), rfl, rfl, rfl⟩, ?_⟩
    rw [stateOf_lift]
    show (chunks pass.world.2).length < (chunks (stateOf (recording (.write text) _ pass.world)).2).length
    rw [calls_stateOf_recording, chunks_write, List.length_append]
    exact Nat.lt_succ_self _

theorem substitute_eq_or_spills (room : Nat) (error : ε) (name : String) (escape : Bool)
    (pass : Pass (ω × List (Call ν))) :
    substitute host.recorded name escape pass =
        substitute (host.capped room error) name escape pass ∨
      Spills room error pass (substitute host.recorded name escape pass)
        (substitute (host.capped room error) name escape pass) := by
  unfold substitute
  split
  · exact .inl rfl
  · simp only [bind, EStateM.bind]
    have hlookup : (host.capped room error).context.lookup name = host.recorded.context.lookup name := rfl
    rw [hlookup]
    cases hf : host.context.lookup name pass.world.1 with
    | error cause world =>
      have he : host.recorded.context.lookup name pass.world =
          .error cause (world, pass.world.2 ++ [.lookup name]) := by
        simp only [Host.recorded, recording, hf]
      rw [lift_of_error he]
      exact .inl rfl
    | ok found world =>
      have ho : host.recorded.context.lookup name pass.world =
          .ok found (world, pass.world.2 ++ [.lookup name]) := by
        simp only [Host.recorded, recording, hf]
      rw [lift_of_ok ho]
      cases found with
      | none => exact .inl rfl
      | some value =>
        -- the lookup is on record by now, but that is neither a chunk nor a name
        have hchunks : chunks (pass.world.2 ++ [.lookup name]) = chunks pass.world.2 :=
          chunks_add _ rfl
        have hloads : loads (pass.world.2 ++ [.lookup name]) = loads pass.world.2 := loads_add _ rfl
        rcases write_eq_or_spills host room error (substitution escape value)
            { pass with world := (world, pass.world.2 ++ [.lookup name]) } with heq | hspills
        · exact .inl heq
        · right
          obtain ⟨hroom, ⟨after, hcut, hafter, hasked, hcache⟩, hfull⟩ := hspills
          rw [hchunks] at hroom hafter hfull
          rw [hloads] at hasked
          exact ⟨hroom, ⟨after, hcut, hafter, hasked, hcache⟩, hfull⟩

/-- With the cap a visit does the same, unless it writes a chunk too many. -/
theorem visit_eq_or_spills (room : Nat) (error : ε) (node : Node) (depth : Int)
    (pass : Pass (ω × List (Call ν))) :
    visit options host.recorded graph node depth pass =
        visit options (host.capped room error) graph node depth pass ∨
      Spills room error pass (visit options host.recorded graph node depth pass)
        (visit options (host.capped room error) graph node depth pass) := by
  -- a visit that writes nothing cannot tell the two sinks apart, and any other is one write or a lookup
  -- and a write
  by_cases hq : Quiet node.label
  · left
    rw [visit_muted options host.recorded graph hq, visit_muted options (host.capped room error) graph hq]
    rfl
  · cases hl : node.label with
    | root =>
      rw [hl] at hq
      exact absurd trivial hq
    | text content position =>
      simp only [visit, hl]
      rcases write_eq_or_spills host room error content pass with heq | hspills
      · left
        simp only [bind, EStateM.bind, heq]
      · right
        exact hspills.bind_pure _
    | tag tag =>
      obtain ⟨escape, hvisit⟩ := visit_of_not_quiet options hl hq depth
      rw [hvisit, hvisit]
      rcases substitute_eq_or_spills host room error tag.name escape pass with heq | hspills
      · left
        simp only [bind, EStateM.bind, heq]
      · right
        exact hspills.bind_pure _

/-- No deed makes the sink take more chunks than there is room for. -/
theorem keeps_room (room : Nat) (error : ε) :
    (visitor options (host.capped room error) graph).Keeps fun _ pass =>
      (chunks pass.world.2).length ≤ room := by
  apply Visitor.keeps_of_preserved
  · intro node depth pass h
    obtain ⟨action, ha, heq⟩ :=
      exists_ofHost_visit options (host.capped room error) graph node depth pass
    show (chunks (stateOf (visit options (host.capped room error) graph node depth
      pass)).world.2).length ≤ room
    rw [heq]
    exact ha.preserves capped_preserves_room h
  · intro hook pass h
    have henter : (visitor options (host.capped room error) graph).enter = enter host.recorded :=
      enter_eq_of_context _ (host.context_capped room error)
    rw [henter, chunks_enter]
    exact h
  · intro hook pass h
    have hleave : (visitor options (host.capped room error) graph).leave = leave host.recorded :=
      leave_eq_of_context _ (host.context_capped room error)
    rw [hleave, chunks_leave]
    exact h

end Render

namespace Renderer

open Render

variable {renderer : Renderer} {host : Host ω ε ν} {graph : Graph ν} {document : Document} {world : ω}
  {room : Nat} {error : ε}

/-- The sink of a rendering has taken no more chunks than there was room for, at any time. -/
theorem room_of_reaches {machine : Machine (Pass (ω × List (Call ν))) (Hook ν)}
    (hr : (visitor renderer.options (host.capped room error) graph).Reaches
      (renderer.start document (world, [])) machine) :
    (chunks machine.state.world.2).length ≤ room := by
  have hnone : (chunks ([] : List (Call ν))).length ≤ room := Nat.zero_le _
  exact (keeps_room renderer.options host graph room error).of_reaches hnone hr

theorem room_render :
    (chunks (renderer.render (host.capped room error) graph document (world, [])).world.2).length ≤
      room := by
  have hnone : (chunks ([] : List (Call ν))).length ≤ room := Nat.zero_le _
  exact (keeps_room renderer.options host graph room error).run hnone
    (halts renderer.options (host.capped room error) graph document.nodes
      ⟨renderer.cache, 0, (world, [])⟩)

/-- A rendering to the capped sink is the same, or it comes to a visit that writes a chunk too many. -/
theorem render_eq_or_spills (renderer : Renderer) (host : Host ω ε ν) (graph : Graph ν)
    (document : Document) (world : ω) (room : Nat) (error : ε) :
    let full := renderer.render host.recorded graph document (world, [])
    let cut := renderer.render (host.capped room error) graph document (world, [])
    cut = full ∨
      ∃ machine node depth,
        (visitor renderer.options host.recorded graph).Reaches (renderer.start document (world, []))
          machine ∧
        (visitor renderer.options (host.capped room error) graph).Reaches
          (renderer.start document (world, [])) machine ∧
        machine.IsAt node depth ∧
        Spills room error machine.state
          (visit renderer.options host.recorded graph node depth machine.state)
          (visit renderer.options (host.capped room error) graph node depth machine.state) := by
  intro full cut
  have he : (visitor renderer.options host.recorded graph).enter =
      (visitor renderer.options (host.capped room error) graph).enter :=
    (enter_eq_of_context _ (host.context_capped room error)).symm
  have hl : (visitor renderer.options host.recorded graph).leave =
      (visitor renderer.options (host.capped room error) graph).leave :=
    (leave_eq_of_context _ (host.context_capped room error)).symm
  -- hooks are the same for both, so the walks are the same until two visits differ
  rcases Visitor.run_eq_or_parts he hl
      (halts renderer.options host.recorded graph document.nodes ⟨renderer.cache, 0, (world, [])⟩)
      (halts renderer.options (host.capped room error) graph document.nodes _) with
    heq | ⟨machine, node, depth, hr, hr', hat, hne⟩
  · left
    exact (congrArg (fun outcome => (⟨outcome.verdict.map fun _ => (),
      { renderer with cache := outcome.state.cache }, outcome.state.world⟩ : Rendering _ ε)) heq).symm
  · right
    rcases visit_eq_or_spills renderer.options host graph room error node depth machine.state with
      heq | hspills
    · exact absurd heq hne
    · exact ⟨machine, node, depth, hr, hr', hat, hspills⟩

/-- What the sink has taken when a visit writes a chunk too many are the first chunks of those that are
written without the cap, of which there are more. -/
theorem take_of_spills {machine : Machine (Pass (ω × List (Call ν))) (Hook ν)} {node : Node}
    {depth : Int}
    (hr : (visitor renderer.options host.recorded graph).Reaches (renderer.start document (world, []))
      machine)
    (hr' : (visitor renderer.options (host.capped room error) graph).Reaches
      (renderer.start document (world, [])) machine)
    (hat : machine.IsAt node depth)
    (hs : Spills room error machine.state
      (visit renderer.options host.recorded graph node depth machine.state)
      (visit renderer.options (host.capped room error) graph node depth machine.state)) :
    let full := renderer.render host.recorded graph document (world, [])
    room < (chunks full.world.2).length ∧
      chunks machine.state.world.2 = (chunks full.world.2).take room := by
  intro full
  have hlength : (chunks machine.state.world.2).length = room :=
    Nat.le_antisymm (room_of_reaches hr') hs.room_le
  -- the walk goes on without the cap, so what it had written by then is the beginning of the whole
  have hbefore : chunks machine.state.world.2 <+: chunks full.world.2 :=
    (prefix_render hr).filterMap Call.chunk?
  have hafter : chunks (stateOf (visit renderer.options host.recorded graph node depth
      machine.state)).world.2 <+: chunks full.world.2 :=
    (prefix_render_of_visit hr hat).filterMap Call.chunk?
  refine ⟨?_, ?_⟩
  · have hmore := hs.full
    rw [hlength] at hmore
    exact Nat.lt_of_lt_of_le hmore hafter.length_le
  · rw [List.prefix_iff_eq_take.1 hbefore, hlength]

/-- **What a rendering to the capped sink does.** It is the same rendering if there is room for all chunks.
Otherwise the sink has taken the first chunks, as many as there was room for, the loader has been asked
for the first names, and as far as scopes can be left, the rendering fails with the error of the sink and
none of them is left open. -/
theorem capped_cases (renderer : Renderer) (host : Host ω ε ν) (graph : Graph ν) (document : Document)
    (world : ω) (room : Nat) (error : ε) :
    let full := renderer.render host.recorded graph document (world, [])
    let cut := renderer.render (host.capped room error) graph document (world, [])
    ((chunks full.world.2).length ≤ room → cut = full) ∧
      (room < (chunks full.world.2).length →
        chunks cut.world.2 = (chunks full.world.2).take room ∧
        loads cut.world.2 <+: loads full.world.2 ∧
        ∀ holds : List (Value ν) → ω → Prop, host.Stacks holds → holds [] world →
          cut.result = .error (.host error) ∧ holds [] cut.world.1) := by
  intro full cut
  rcases renderer.render_eq_or_spills host graph document world room error with
    heq | ⟨machine, node, depth, hr, hr', hat, hspills⟩
  · refine ⟨fun _ => heq, fun hmore => ?_⟩
    -- a rendering that is the same has as many chunks, and they were never more than there is room for
    have hroom : (chunks cut.world.2).length ≤ room := room_render
    rw [show cut = full from heq] at hroom
    exact absurd hroom (Nat.not_le.2 hmore)
  · obtain ⟨hmore, htake⟩ := take_of_spills hr hr' hat hspills
    refine ⟨fun hroom => absurd hroom (Nat.not_le.2 hmore), fun _ => ?_⟩
    obtain ⟨after, hcut, hchunks, hloads, _⟩ := hspills.cut
    obtain ⟨hwritten, hasked, _⟩ := after_visit_error host (host.context_capped room error) hr' hat hcut
    refine ⟨?_, ?_, ?_⟩
    · show chunks cut.world.2 = _
      rw [hwritten, hchunks, htake]
    · show loads cut.world.2 <+: _
      rw [hasked, hloads]
      exact (prefix_render hr).filterMap Call.loaded?
    · intro holds hs hw
      exact ⟨hs.capped.result_of_visit hw hr' hat hcut, hs.capped.render hw⟩

end Renderer

/-! ## The session goes on -/

/-- To pin a loader to its own answers changes nothing. -/
theorem Errand.pinned_inquiries (errand : Errand ω ε ν) (history : History) (calls : List (Call ν)) :
    (history ++ errand.inquiries calls).pinned errand.loader = history.pinned errand.loader := by
  funext name
  simp only [History.pinned, History.settling?_append]
  cases hs : history.settling? name with
  | some first => rfl
  | none =>
    rw [Option.none_or]
    cases hl : History.settling? (errand.inquiries calls) name with
    | none => rfl
    | some inquiry =>
      obtain ⟨hmem, rfl, _⟩ := History.of_settling? hl
      rw [errand.answer_of_mem_inquiries hmem]
      cases errand.loader inquiry.name with
      | ok answer => rfl
      | error error => rfl

namespace Session

open Render

variable {options : RenderOptions} {session : Session} {errand : Errand ω ε ν}

/-- What the renderer has learned by the time that it comes to a machine is what it has asked for. -/
theorem Sound.of_reaches (h : session.Sound options)
    {machine : Machine (Pass (ω × List (Call ν))) (Hook ν)}
    (hr : (visitor options errand.host.recorded errand.graph).Reaches
      (session.renderer.start errand.document (errand.world, [])) machine) :
    Sound options ⟨⟨options, machine.state.cache⟩,
      session.history ++ errand.inquiries machine.state.world.2⟩ := by
  have hd : ∀ node ∈ errand.document.nodes, node.Every fun _ => True :=
    fun node _ => every_of_forall (fun _ => trivial) node
  obtain ⟨_, _, halike⟩ := ((errand.twins_pinned session.history).simulates
    (admissible_eq errand.graph Set.univ) options).of_reaches
    (Visitor.start_alike hd (h.inStep errand)) hr
  exact ⟨rfl, halike.state.known, halike.state.once⟩

/-- An errand is done as before by a renderer that has learned no more than what the loader of the errand
answers. -/
theorem Sound.render_again (h : session.Sound options) {renderer : Renderer} {calls : List (Call ν)}
    (hs : Sound options ⟨renderer, session.history ++ errand.inquiries calls⟩) :
    let first := errand.render session.renderer
    let again := errand.render renderer
    again.result = first.result ∧ again.world.1 = first.world.1 ∧
      deeds again.world.2 = deeds first.world.2 := by
  intro first again
  obtain ⟨hresult, hstep⟩ := h.render errand
  obtain ⟨hresult', hstep'⟩ := hs.render errand
  -- the loader that is pinned to both histories gives the same, so both renderings are that of a new
  -- renderer
  have hpinned : errand.pinnedTo (session.history ++ errand.inquiries calls) =
      errand.pinnedTo session.history := by
    rw [Errand.pinnedTo, errand.pinned_inquiries]
    rfl
  rw [hpinned] at hresult' hstep'
  exact ⟨hresult'.trans hresult.symm, hstep'.world.trans hstep.world.symm,
    hstep'.acts.trans hstep.acts.symm⟩

/-- The renderer of a rendering that the sink has cut short knows what it has asked for until then. -/
theorem Sound.capped (h : session.Sound options) (errand : Errand ω ε ν) (room : Nat) (error : ε) :
    ∃ calls, Sound options ⟨(session.renderer.render (errand.host.capped room error) errand.graph
      errand.document (errand.world, [])).renderer, session.history ++ errand.inquiries calls⟩ := by
  obtain rfl := h.options
  rcases session.renderer.render_eq_or_spills errand.host errand.graph errand.document errand.world room
      error with heq | ⟨machine, node, depth, hr, hr', hat, hspills⟩
  · refine ⟨(errand.render session.renderer).world.2, ?_⟩
    rw [heq]
    exact h.next ⟨errand⟩
  -- it has asked what was asked up to the visit at which the sink failed, for that visit keeps the
  -- cache
  · refine ⟨machine.state.world.2, ?_⟩
    obtain ⟨after, hcut, _, _, hkept⟩ := hspills.cut
    have hcache := (Renderer.after_visit_error errand.host
      (errand.host.context_capped room error) hr' hat hcut).2.2
    rw [hkept] at hcache
    have hsound := h.of_reaches hr
    rw [← hcache] at hsound
    exact hsound

/-- **A sink that fails sees exactly the beginning.** In any session, an errand is done to a sink that takes
so many chunks and fails at the next. If no more are written, nothing is different. Otherwise the sink has
taken the first chunks of those that are written without the cap, the loader has been asked for the first
names, and if scopes can be left, the rendering fails with the error of the sink and the context is as it
was. In either case the same errand done next, with the sink working, comes to what it would have come to
at first. -/
theorem render_capped (options : RenderOptions) (errands : List SomeErrand) (errand : Errand ω ε ν)
    (room : Nat) (error : ε) :
    let session := after options errands
    let full := errand.render session.renderer
    let cut := session.renderer.render (errand.host.capped room error) errand.graph errand.document
      (errand.world, [])
    let later := errand.render cut.renderer
    ((chunks full.world.2).length ≤ room → cut = full) ∧
      (room < (chunks full.world.2).length →
        chunks cut.world.2 = (chunks full.world.2).take room ∧
        loads cut.world.2 <+: loads full.world.2 ∧
        ∀ holds : List (Value ν) → ω → Prop, errand.host.Stacks holds → holds [] errand.world →
          cut.result = .error (.host error) ∧ holds [] cut.world.1) ∧
      later.result = full.result ∧ later.world.1 = full.world.1 ∧
      deeds later.world.2 = deeds full.world.2 := by
  intro session full cut later
  have hsound : session.Sound options := sound_after options errands
  obtain ⟨hsame, hcut⟩ := session.renderer.capped_cases errand.host errand.graph errand.document
    errand.world room error
  obtain ⟨calls, hcapped⟩ := hsound.capped errand room error
  exact ⟨hsame, hcut, hsound.render_again hcapped⟩

/-- Two texts in a section over an object. -/
def sectionErrand : Errand (ContextStack Unit) String Unit where
  document := ⟨[⟨.tag ⟨"a", .sectionBegin, 0⟩, [⟨.text "x" 6, []⟩, ⟨.text "y" 7, []⟩]⟩], ""⟩
  graph := sampleGraph
  context := (Context.ofStack sampleGraph).zoom id (fun stack _ => stack) ContextError.message
  write _ := pure ()
  world := sampleStage.context
  loader _ := .ok none

def sectionErrand.seat : sectionErrand.host.Seat sampleGraph where
  get := id
  set stack _ := stack
  embed := ContextError.message
  context_eq := rfl
  get_set _ _ := rfl
  get_write _ _ := rfl
  get_load _ _ := rfl
  get_note _ _ := rfl

/-- If there is room for one of the texts, the rendering fails inside the section, and the section is
left. -/
theorem render_capped_section :
    let session := after {} []
    let full := sectionErrand.render session.renderer
    let cut := session.renderer.render (sectionErrand.host.capped 1 "full") sampleGraph
      sectionErrand.document (sectionErrand.world, [])
    chunks full.world.2 = ["x", "y"] ∧ chunks cut.world.2 = ["x"] ∧
      cut.result = .error (.host "full") ∧ cut.world.1 = sectionErrand.world := by
  intro session full cut
  have hfull : full = _ := Renderer.render_eq_of_ends ⟨12, rfl⟩
  have hchunks : chunks full.world.2 = ["x", "y"] := by
    rw [hfull]
    rfl
  have hmore : 1 < (chunks full.world.2).length := by
    rw [hchunks]
    decide
  obtain ⟨htake, _, hstacks⟩ := (render_capped {} [] sectionErrand 1 "full").2.1 hmore
  obtain ⟨hresult, hstack⟩ := hstacks _ (sectionErrand.seat.stacks sectionErrand.world) rfl
  refine ⟨hchunks, htake.trans ?_, hresult, hstack⟩
  show (chunks full.world.2).take 1 = ["x"]
  rw [hchunks]
  rfl

end Session

end Stencil

import Stencil.Proofs.Render.Calls
import Stencil.Proofs.Render.Requests
import Stencil.Proofs.Render.Twins
import Stencil.Proofs.Text.Markup
import Stencil.Proofs.Walk.Steps

/-!
# Where the chunks of the output come from

Whatever a rendering writes, it writes at a visit. A text node writes its text. A variable writes what
its name was found to be, and if the options say so and the tag does not object, the text of that is
escaped. There is no other way for data to reach the sink, be it from a list, an object, a partial or a
section inside of these. So if no tag objects, markup comes from templates alone
(`Renderer.render_harmless`).

The argument is an invariant of the record of calls: each write on it was made by a visit that the walk
had come to, right after the calls that stand before it (`EveryWrite`). Visits of most nodes cannot
write at all: they are the same for a host without its sink (`visit_muted`).
-/

set_option autoImplicit false

namespace Stencil

open Walk

variable {ω ε ν : Type}

/-! ## Writes on record -/

def Call.chunk? : Call ν → Option String
  | .write text => some text
  | .lookup _ | .push _ | .pop | .load _ | .note _ => none

def Call.loaded? : Call ν → Option String
  | .load name => some name
  | .lookup _ | .push _ | .pop | .write _ | .note _ => none

/-- The chunks that were written, in order. -/
def chunks (calls : List (Call ν)) : List String := calls.filterMap Call.chunk?

/-- The names that the loader was asked for, in order. -/
def loads (calls : List (Call ν)) : List String := calls.filterMap Call.loaded?

/-- A call that writes nothing adds no chunk. -/
theorem chunks_add (calls : List (Call ν)) {call : Call ν} (hc : call.chunk? = none) :
    chunks (calls ++ [call]) = chunks calls := by
  simp [chunks, hc]

theorem loads_add (calls : List (Call ν)) {call : Call ν} (hc : call.loaded? = none) :
    loads (calls ++ [call]) = loads calls := by
  simp [loads, hc]

theorem chunks_write (calls : List (Call ν)) (text : String) :
    chunks (calls ++ [.write text]) = chunks calls ++ [text] := by
  simp [chunks, Call.chunk?]

/-- Each chunk on the record has the property, together with the calls before it. -/
def EveryWrite (property : List (Call ν) → String → Prop) (calls : List (Call ν)) : Prop :=
  ∀ before chunk after, calls = before ++ .write chunk :: after → property before chunk

section EveryWrite

variable {property : List (Call ν) → String → Prop} {calls : List (Call ν)}

theorem everyWrite_nil : EveryWrite property ([] : List (Call ν)) := by
  intro before chunk after h
  simp at h

theorem EveryWrite.add (h : EveryWrite property calls) {call : Call ν}
    (hc : ∀ chunk, call = .write chunk → property calls chunk) :
    EveryWrite property (calls ++ [call]) := by
  intro before chunk after heq
  rcases List.eq_nil_or_concat after with rfl | ⟨later, last, rfl⟩
  · obtain ⟨rfl, hcall⟩ := List.append_inj' heq rfl
    exact hc chunk (List.cons.inj hcall).1
  · rw [List.concat_eq_append, ← List.cons_append, ← List.append_assoc] at heq
    obtain ⟨hcalls, _⟩ := List.append_inj' heq rfl
    exact h before chunk later hcalls

/-- A call that writes nothing has no chunk to answer for. -/
theorem EveryWrite.addQuiet (h : EveryWrite property calls) {call : Call ν}
    (hc : ∀ chunk, call ≠ .write chunk) : EveryWrite property (calls ++ [call]) := by
  apply h.add
  intro chunk heq
  exact absurd heq (hc chunk)

end EveryWrite

theorem calls_stateOf_recording {α : Type} (call : Call ν) (action : EStateM ε ω α)
    (whole : ω × List (Call ν)) : (stateOf (recording call action whole)).2 = whole.2 ++ [call] := by
  simp only [recording]
  cases action whole.1 <;> rfl

/-- The host without its sink. -/
def Host.muted (host : Host ω ε ν) : Host ω ε ν := { host with write := fun _ => pure () }

theorem muted_preserves_everyWrite (host : Host ω ε ν) (property : List (Call ν) → String → Prop) :
    host.recorded.muted.Preserves fun whole => EveryWrite property whole.2 where
  lookup name whole h := by
    show EveryWrite property (stateOf (recording (.lookup name) _ whole)).2
    rw [calls_stateOf_recording]
    exact h.addQuiet nofun
  write text whole h := h
  load name whole h := by
    show EveryWrite property (stateOf (recording (.load name) _ whole)).2
    rw [calls_stateOf_recording]
    exact h.addQuiet nofun
  note notice whole h := h.addQuiet nofun

namespace Render

variable (options : RenderOptions) (host : Host ω ε ν) (graph : Graph ν)

/-! ## Visits that cannot write -/

/-- Only texts and variables write. -/
def Quiet : Label → Prop
  | .root => True
  | .text _ _ => False
  | .tag tag => tag.type ≠ .escaped ∧ tag.type ≠ .unescaped

theorem visit_muted {node : Node} (hq : Quiet node.label) (depth : Int) :
    visit options host graph node depth = visit options host.muted graph node depth := by
  cases hl : node.label with
  | root => simp only [visit, hl]
  | text content position =>
    rw [hl] at hq
    exact hq.elim
  | tag tag =>
    rw [hl] at hq
    cases ht : tag.type with
    | escaped => exact absurd ht hq.1
    | unescaped => exact absurd ht hq.2
    | sectionBegin | invertedBegin | inclusion =>
      simp only [visit, hl, ht]
      rfl
    | invalid | sectionEnd | comment | switch => simp only [visit, hl, ht]

variable {graph} in
/-- A tag that is not quiet writes the value of its name, escaped or not. -/
theorem visit_of_not_quiet {node : Node} {tag : Tag} (hl : node.label = .tag tag)
    (hq : ¬ Quiet node.label) (depth : Int) :
    ∃ escape, ∀ host : Host ω ε ν, visit options host graph node depth =
      substitute host tag.name escape >>= fun _ => pure (.proceed, []) := by
  cases ht : tag.type with
  | escaped => exact ⟨options.escape, fun host => by simp only [visit, hl, ht]⟩
  | unescaped => exact ⟨false, fun host => by simp only [visit, hl, ht]⟩
  | sectionBegin | invertedBegin | inclusion | invalid | sectionEnd | comment | switch =>
    rw [hl] at hq
    simp [Quiet, ht] at hq

variable {host} {property : List (Call ν) → String → Prop} {pass : Pass (ω × List (Call ν))}

theorem everyWrite_visit_of_quiet {node : Node} (hq : Quiet node.label) (depth : Int)
    (h : EveryWrite property pass.world.2) :
    EveryWrite property (stateOf (visit options host.recorded graph node depth pass)).world.2 := by
  rw [visit_muted options host.recorded graph hq depth]
  obtain ⟨action, ha, heq⟩ := exists_ofHost_visit options host.recorded.muted graph node depth pass
  rw [heq]
  exact ha.preserves (muted_preserves_everyWrite host property) h

/-- Entering a hook puts on record that a value was pushed, or nothing. -/
theorem calls_enter (host : Host ω ε ν) (hook : Hook ν) (pass : Pass (ω × List (Call ν))) :
    (stateOf (enter host.recorded hook pass)).world.2 = pass.world.2 ∨
      ∃ value, (stateOf (enter host.recorded hook pass)).world.2 = pass.world.2 ++ [.push value] := by
  cases hook with
  | inclusion => exact .inl rfl
  | scope value =>
    simp only [enter, Host.recorded]
    cases host.context.scopes with
    | none => exact .inl rfl
    | some scopes =>
      refine .inr ⟨value, ?_⟩
      show (stateOf (lift (recording (.push value) (scopes.push value)) pass)).world.2 = _
      rw [stateOf_lift]
      exact calls_stateOf_recording _ _ pass.world

/-- Leaving a hook puts on record that a value was popped, or nothing. -/
theorem calls_leave (host : Host ω ε ν) (hook : Hook ν) (pass : Pass (ω × List (Call ν))) :
    (stateOf (leave host.recorded hook pass)).world.2 = pass.world.2 ∨
      (stateOf (leave host.recorded hook pass)).world.2 = pass.world.2 ++ [.pop] := by
  cases hook with
  | inclusion => exact .inl rfl
  | scope value =>
    simp only [leave, Host.recorded]
    cases host.context.scopes with
    | none => exact .inl rfl
    | some scopes =>
      refine .inr ?_
      show (stateOf ((lift (recording .pop scopes.pop) >>= fun _ => pure ()) pass)).world.2 = _
      rw [stateOf_bind_pure, stateOf_lift]
      exact calls_stateOf_recording _ _ pass.world

theorem everyWrite_enter (hook : Hook ν) (h : EveryWrite property pass.world.2) :
    EveryWrite property (stateOf (enter host.recorded hook pass)).world.2 := by
  rcases calls_enter host hook pass with hcalls | ⟨value, hcalls⟩
  · rw [hcalls]
    exact h
  · rw [hcalls]
    exact h.addQuiet nofun

theorem everyWrite_leave (hook : Hook ν) (h : EveryWrite property pass.world.2) :
    EveryWrite property (stateOf (leave host.recorded hook pass)).world.2 := by
  rcases calls_leave host hook pass with hcalls | hcalls
  · rw [hcalls]
    exact h
  · rw [hcalls]
    exact h.addQuiet nofun

/-! ## Visits that write -/

/-- The chunk is written by a visit of the node, after these calls: it is the text of the node, or it
is harmless in markup and stands for the value that the name of the variable was found to have. -/
inductive Produces (host : Host ω ε ν) (node : Node) (pass : Pass (ω × List (Call ν))) :
    List (Call ν) → String → Prop
  | text {content : String} {position : Int} (hl : node.label = .text content position) :
    Produces host node pass pass.world.2 content
  | variable {tag : Tag} {value : Value ν} {found : ω} {chunk : String}
    (hl : node.label = .tag tag) (ht : tag.type = .escaped)
    (hf : host.context.lookup tag.name pass.world.1 = .ok (some value) found)
    (hh : Text.Harmless chunk value.asText) :
    Produces host node pass (pass.world.2 ++ [.lookup tag.name]) chunk

theorem everyWrite_text (content : String) (h : EveryWrite property pass.world.2)
    (hp : property pass.world.2 content) :
    EveryWrite property (stateOf (lift (host.recorded.write content) pass)).world.2 := by
  rw [stateOf_lift]
  show EveryWrite property (stateOf (recording (.write content) (host.write content) pass.world)).2
  rw [calls_stateOf_recording]
  apply h.add
  rintro chunk ⟨⟩
  exact hp

theorem everyWrite_substitute (name : String) (escape : Bool) (h : EveryWrite property pass.world.2)
    (hp : ∀ value found, host.context.lookup name pass.world.1 = .ok (some value) found →
      property (pass.world.2 ++ [.lookup name]) (substitution escape value)) :
    EveryWrite property (stateOf (substitute host.recorded name escape pass)).world.2 := by
  unfold substitute
  split
  · exact h
  · have hlookup : EveryWrite property (pass.world.2 ++ [.lookup name]) := h.addQuiet nofun
    simp only [bind, EStateM.bind]
    -- the lookup is on record before the text is, so it is among what comes before the chunk
    cases hf : host.context.lookup name pass.world.1 with
    | error error world =>
      have he : host.recorded.context.lookup name pass.world =
          .error error (world, pass.world.2 ++ [.lookup name]) := by
        simp only [Host.recorded, recording, hf]
      rw [lift_of_error he]
      exact hlookup
    | ok found world =>
      have ho : host.recorded.context.lookup name pass.world =
          .ok found (world, pass.world.2 ++ [.lookup name]) := by
        simp only [Host.recorded, recording, hf]
      rw [lift_of_ok ho]
      cases found with
      | none => exact hlookup
      | some value => exact everyWrite_text _ hlookup (hp value world hf)

theorem everyWrite_visit (he : options.escape = true) {node : Node} (hn : node.label.Lacks .unescaped)
    (depth : Int) (h : EveryWrite property pass.world.2)
    (hp : ∀ before chunk, Produces host node pass before chunk → property before chunk) :
    EveryWrite property (stateOf (visit options host.recorded graph node depth pass)).world.2 := by
  cases hl : node.label with
  | root =>
    have hq : Quiet node.label := by
      rw [hl]
      trivial
    exact everyWrite_visit_of_quiet options graph hq depth h
  | text content position =>
    simp only [visit, hl]
    rw [stateOf_bind_pure]
    exact everyWrite_text content h (hp _ _ (.text hl))
  | tag tag =>
    by_cases ht : tag.type = .escaped
    · simp only [visit, hl, ht, he]
      rw [stateOf_bind_pure]
      apply everyWrite_substitute tag.name true h
      intro value found hf
      exact hp _ _ (.variable hl ht hf (Text.harmless_escapeMarkup value.asText))
    · have hq : Quiet node.label := by
        rw [hl]
        exact ⟨ht, hn tag hl⟩
      exact everyWrite_visit_of_quiet options graph hq depth h

end Render

namespace Renderer

open Render

/-- The rendering comes to a tag that includes this document. -/
def Includes (renderer : Renderer) (host : Host ω ε ν) (graph : Graph ν) (document : Document)
    (world : ω) (known : Document) : Prop :=
  ∃ machine node depth tag,
    (visitor renderer.options host graph).Reaches (renderer.start document world) machine ∧
      machine.IsAt node depth ∧ node.label = .tag tag ∧ tag.type = .inclusion ∧
      (tag.name, some known) ∈ (renderer.render host graph document world).renderer.cache

variable {renderer : Renderer} {host : Host ω ε ν} {graph : Graph ν} {document : Document}
  {world : ω}

/-- What a visit puts into the cache is there at the end. -/
theorem mem_cache_render {machine : Machine (Pass ω) (Hook ν)} {node : Node} {depth : Int}
    {entry : String × Option Document}
    (hr : (visitor renderer.options host graph).Reaches (renderer.start document world) machine)
    (hat : machine.IsAt node depth)
    (hm : entry ∈ (stateOf (visit renderer.options host graph node depth machine.state)).cache) :
    entry ∈ (renderer.render host graph document world).renderer.cache := by
  have hkeeps : (visitor renderer.options host graph).Keeps fun _ pass => entry ∈ pass.cache := by
    apply Visitor.keeps_of_preserved
    · intro node depth pass h
      exact mem_cache_visit renderer.options host graph node depth h
    · intro hook pass h
      exact mem_cache_enter host hook h
    · intro hook pass h
      exact mem_cache_leave host hook h
  exact hkeeps.run_of_visit hr hat hm
    (halts renderer.options host graph document.nodes ⟨renderer.cache, 0, world⟩)

/-- The nodes that wait are those of the document and of the partials that are included. -/
theorem pending_render {property : Label → Prop} (hd : document.Every property)
    (hi : ∀ known, renderer.Includes host graph document world known → known.Every property)
    {machine : Machine (Pass ω) (Hook ν)}
    (hr : (visitor renderer.options host graph).Reaches (renderer.start document world) machine) :
    Visitor.Pending (fun node => node.Every property) (fun _ => True) machine := by
  refine Visitor.pending_of_reaches ?_ ?_ (Visitor.pending_start hd) hr
  · intro node hn
    exact hn.children
  · intro machine hr hpending node depth control requests after hat hv request hm
    refine ⟨?_, fun _ _ => trivial⟩
    -- what a visit asks for are children of its node or a partial, and that is in the cache by then
    cases requested_of_visit hv request hm with
    | body => exact (hpending.at hat).children
    | @inclusion tag known _ hl ht hcache =>
      have hafter : stateOf (visit renderer.options host graph node depth machine.state) = after :=
        congrArg stateOf hv
      apply hi known
      refine ⟨machine, node, depth, tag, hr, hat, hl, ht, mem_cache_render hr hat ?_⟩
      rw [hafter]
      exact hcache

/-- **Data cannot inject markup.** If values are escaped, and neither the document nor any partial that
is included has a tag that writes its value as it is, then each chunk that is written is the text of a
text node, or it is harmless and stands for the value of a variable. -/
theorem render_harmless (he : renderer.options.escape = true) (hd : document.Every (Label.Lacks .unescaped))
    (hi : ∀ known, renderer.Includes host.recorded graph document (world, []) known →
      known.Every (Label.Lacks .unescaped))
    {before after : List (Call ν)} {chunk : String}
    (hw : (renderer.render host.recorded graph document (world, [])).world.2 =
      before ++ .write chunk :: after) :
    ∃ machine node depth,
      (visitor renderer.options host.recorded graph).Reaches (renderer.start document (world, []))
        machine ∧
      machine.IsAt node depth ∧ Produces host node machine.state before chunk := by
  have halts := halts renderer.options host.recorded graph document.nodes
    ⟨renderer.cache, 0, (world, [])⟩
  -- the property speaks of machines of this very walk, so they are told where each visit takes place
  have hall : EveryWrite (fun before chunk => ∃ machine node depth,
      (visitor renderer.options host.recorded graph).Reaches (renderer.start document (world, []))
        machine ∧
      machine.IsAt node depth ∧ Produces host node machine.state before chunk)
      (renderer.render host.recorded graph document (world, [])).world.2 := by
    refine Visitor.run_induction (fun pass => EveryWrite _ pass.world.2) ?_ ?_ ?_
      everyWrite_nil halts
    · intro machine node depth hr hat h
      apply everyWrite_visit renderer.options graph he ((pending_render hd hi hr).at hat).label depth h
      intro before chunk hp
      exact ⟨machine, node, depth, hr, hat, hp⟩
    · intro hook pass h
      exact everyWrite_enter hook h
    · intro hook pass h
      exact everyWrite_leave hook h
  exact hall before chunk after hw

/-- A text, and a partial that writes a variable. -/
def markupDocument : Document := ⟨[⟨.text "<b>" 0, []⟩, ⟨.tag ⟨"p", .inclusion, 3⟩, []⟩], ""⟩

def markupPartial : Document := ⟨[⟨.tag ⟨"v", .escaped, 0⟩, []⟩], ""⟩

def markupRenderer : Renderer := { cache := [("p", some markupPartial)] }

def markupStage : Stage (ContextStack Unit) :=
  { context := ⟨.object (.mapping [(.text "v", .scalar (.text "<&'"))]), []⟩ }

theorem render_harmless_sample :
    ∃ machine node depth,
      (visitor markupRenderer.options sampleHost.recorded sampleGraph).Reaches
        (markupRenderer.start markupDocument (markupStage, [])) machine ∧
      machine.IsAt node depth ∧
      Produces sampleHost node machine.state [.write "<b>", .lookup "v"] "&lt;&amp;&#x27;" := by
  have hd : markupDocument.Every (Label.Lacks .unescaped) := by
    refine List.forall_mem_cons.2 ⟨.intro nofun nofun, List.forall_mem_singleton.2 (.intro ?_ nofun)⟩
    rintro _ ⟨⟩
    simp
  -- the one partial that is included is what the cache has in the end
  have hi : ∀ known, markupRenderer.Includes sampleHost.recorded sampleGraph markupDocument
      (markupStage, []) known → known.Every (Label.Lacks .unescaped) := by
    rintro known ⟨_, _, _, tag, _, _, _, _, hm⟩
    rw [render_eq_of_ends ⟨14, rfl⟩] at hm
    obtain ⟨_, hknown⟩ := Prod.mk.inj (List.mem_singleton.1 hm)
    cases hknown
    refine List.forall_mem_singleton.2 (.intro ?_ nofun)
    rintro _ ⟨⟩
    simp
  have hw : (markupRenderer.render sampleHost.recorded sampleGraph markupDocument
      (markupStage, [])).world.2 = [.write "<b>", .lookup "v"] ++ .write "&lt;&amp;&#x27;" :: [] := by
    rw [render_eq_of_ends ⟨14, rfl⟩]
    rfl
  exact render_harmless rfl hd hi hw

end Renderer

end Stencil

import Mathlib.Data.Set.Insert
import Stencil.Proofs.Render.Calls
import Stencil.Proofs.Render.Loaded

/-!
# What a template cannot name does not matter

A template sees of the data what its names lead to. Take the names in a document and in every partial
that can be loaded, with all their parts. If these names cannot tell two pieces of data apart, that is,
if their roots stand in some admissible relation, then rendering over the one and over the other is the
same: the same calls in the same order, and the same end. So keys that no name mentions are invisible,
and so is how the data are put together, whether containers are shared, copied, or inside themselves.

The comparison is made host by host (`Host.Alike`) and then holds of the hosts with their calls on
record as well, where the scopes entered are related one by one and all other calls are equal.
-/

set_option autoImplicit false

namespace Stencil

open Walk

variable {κ ι ω τ δ ε ν μ : Type}

/-- All names in a label, with all their parts, are among these. -/
def Label.Within (names : Set String) : Label → Prop
  | .tag named => ∀ part ∈ ContextStack.segments named.name, part ∈ names
  | _ => True

/-- The document of this source, if it has one, stays within the names. -/
def SourceWithin (names : Set String) (source : String) : Prop :=
  ∀ document, Template.parse source = .ok document → document.Every (Label.Within names)

/-- Two hosts that do alike whatever rendering asks of them. -/
structure Host.Alike (host : Host ω ε ν) (other : Host τ ε μ) (names : Set String)
    (values : Value ν → Value μ → Prop) (worlds : ω → τ → Prop) : Prop where
  lookup : ∀ name, (∀ part ∈ ContextStack.segments name, part ∈ names) →
    Matches (Option.Rel values) worlds (host.context.lookup name) (other.context.lookup name)
  write : ∀ text, Matches Eq worlds (host.write text) (other.write text)
  load : ∀ name, Matches (fun answer reply => answer = reply ∧ ∀ source ∈ answer,
    SourceWithin names source) worlds (host.load name) (other.load name)
  note : ∀ notice {world around}, worlds world around →
    worlds (host.note notice world) (other.note notice around)
  scopes : Option.Rel (fun scopes besides =>
    (∀ {value beside}, values value beside →
      Matches Eq worlds (scopes.push value) (besides.push beside)) ∧
    Matches values worlds scopes.pop besides.pop) host.context.scopes other.context.scopes

theorem Host.Alike.peers {host : Host ω ε ν} {other : Host τ ε μ} {names : Set String}
    {values : Value ν → Value μ → Prop} {worlds : ω → τ → Prop}
    (h : host.Alike other names values worlds) :
    host.Peers other (Label.Within names) values worlds where
  lookup tag ht := h.lookup tag.name ht
  write := h.write
  load := h.load
  note := h.note

/-! ## Renderings for hosts that are alike -/

namespace Render

/-- Passes with the same partials, within the names, and with worlds that go together. -/
abbrev Pass.Alike (names : Set String) (worlds : ω → τ → Prop) : Pass ω → Pass τ → Prop :=
  Pass.Fits (Label.Within names) worlds

theorem twins_of_alike {names : Set String} {worlds : ω → τ → Prop}
    {values : Value ν → Value μ → Prop} {host : Host ω ε ν} {other : Host τ ε μ}
    (h : host.Alike other names values worlds) :
    Twins host other (Label.Within names) values (Pass.Alike names worlds) where
  toPeers := surroundings_of_peers h.peers
  scopes := by
    have hs := h.scopes
    generalize host.context.scopes = scopes at hs ⊢
    generalize other.context.scopes = besides at hs ⊢
    cases hs with
    | none => exact .none
    | some hs => exact .some ⟨fun hv => matches_lift_worlds (hs.1 hv), matches_lift_worlds hs.2⟩

end Render

/-! ## Calls on record -/

/-- Calls for the same thing, or for entering scopes of values that go together. -/
inductive Call.Alike (values : Value ν → Value μ → Prop) : Call ν → Call μ → Prop
  | lookup (name : String) : Call.Alike values (.lookup name) (.lookup name)
  | push {value : Value ν} {beside : Value μ} (h : values value beside) :
    Call.Alike values (.push value) (.push beside)
  | pop : Call.Alike values .pop .pop
  | write (text : String) : Call.Alike values (.write text) (.write text)
  | load (name : String) : Call.Alike values (.load name) (.load name)
  | note (notice : Notice) : Call.Alike values (.note notice) (.note notice)

/-- Worlds that go together, with records that agree call by call. -/
structure RecordsAlike (values : Value ν → Value μ → Prop) (worlds : ω → τ → Prop)
    (whole : ω × List (Call ν)) (other : τ × List (Call μ)) : Prop where
  world : worlds whole.1 other.1
  calls : List.Forall₂ (Call.Alike values) whole.2 other.2

theorem matches_recording {α β : Type} {values : Value ν → Value μ → Prop} {worlds : ω → τ → Prop}
    {answers : α → β → Prop} {call : Call ν} {twin : Call μ} {action : EStateM ε ω α}
    {other : EStateM ε τ β} (hc : call.Alike values twin) (h : Matches answers worlds action other) :
    Matches answers (RecordsAlike values worlds) (recording call action) (recording twin other) := by
  intro whole beside hw
  have hcalls : List.Forall₂ (Call.Alike values) (whole.2 ++ [call]) (beside.2 ++ [twin]) :=
    List.rel_append hw.calls (.cons hc .nil)
  simp only [recording]
  rcases (h _ _ hw.world).exists_eq with ⟨_, _, _, _, ha, hb, hr, hs⟩ | ⟨error, _, _, ha, hb, hs⟩
  · rw [ha, hb]
    exact .ok hr ⟨hs, hcalls⟩
  · rw [ha, hb]
    exact .error ⟨hs, hcalls⟩

theorem Host.Peers.recorded {host : Host ω ε ν} {other : Host τ ε μ} {fit : Label → Prop}
    {values : Value ν → Value μ → Prop} {worlds : ω → τ → Prop}
    (h : host.Peers other fit values worlds) (entered : Value ν → Value μ → Prop) :
    host.recorded.Peers other.recorded fit values (RecordsAlike entered worlds) where
  lookup tag ht := matches_recording (.lookup tag.name) (h.lookup tag ht)
  write text := matches_recording (.write text) (h.write text)
  load name := matches_recording (.load name) (h.load name)
  note notice _ _ hw := ⟨h.note notice hw.world, List.rel_append hw.calls (.cons (.note notice) .nil)⟩

theorem Host.Alike.recorded {host : Host ω ε ν} {other : Host τ ε μ} {names : Set String}
    {values : Value ν → Value μ → Prop} {worlds : ω → τ → Prop}
    (h : host.Alike other names values worlds) :
    host.recorded.Alike other.recorded names values (RecordsAlike values worlds) where
  lookup name hn := matches_recording (.lookup name) (h.lookup name hn)
  write := (h.peers.recorded values).write
  load := (h.peers.recorded values).load
  note := (h.peers.recorded values).note
  scopes := by
    have hs := h.scopes
    simp only [Host.recorded]
    generalize host.context.scopes = scopes at hs ⊢
    generalize other.context.scopes = besides at hs ⊢
    cases hs with
    | none => exact .none
    | some hs =>
      exact .some ⟨fun hv => matches_recording (.push hv) (hs.1 hv), matches_recording .pop hs.2⟩

/-! ## A stack of values beside anything else -/

theorem ContextStack.pushed_of_ofDatum {graph : Graph ν} {datum : Datum ν} {stack : ContextStack ν}
    (h : ofDatum graph datum = .ok stack) : stack.pushed = [] := by
  unfold ofDatum at h
  split at h
  · cases h
    rfl
  · cases hw : Value.wrap graph datum with
    | ok root =>
      rw [hw] at h
      cases h
      rfl
    | error error =>
      rw [hw] at h
      cases h

/-- A sink and a loader, and what becomes of notices. -/
structure Outlet (ω ε : Type) where
  write : String → EStateM ε ω Unit
  load : String → EStateM ε ω (Option String)
  note : Notice → ω → ω

/-- A context, together with a sink and a loader that have no part in it. -/
def Outlet.over (outlet : Outlet ω ε) (context : Context κ δ ν) (embed : δ → ε) :
    Host (κ × ω) ε ν where
  context := context.zoom Prod.fst (fun state whole => (state, whole.2)) embed
  write text := zoom Prod.snd (fun world whole => (whole.1, world)) id (outlet.write text)
  load name := zoom Prod.snd (fun world whole => (whole.1, world)) id (outlet.load name)
  note notice whole := (whole.1, outlet.note notice whole.2)

/-- The standard context over these data, together with a sink and a loader. -/
def Outlet.host (outlet : Outlet ω ε) (embed : ContextError → ε) (graph : Graph ν) :
    Host (ContextStack ν × ω) ε ν where
  context := (Context.ofStack graph).zoom Prod.fst (fun stack whole => (stack, whole.2)) embed
  write text := zoom Prod.snd (fun world whole => (whole.1, world)) id (outlet.write text)
  load name := zoom Prod.snd (fun world whole => (whole.1, world)) id (outlet.load name)
  note notice whole := (whole.1, outlet.note notice whole.2)

/-- The loader has no partials but those in which every label fits. -/
def Outlet.SuppliesOnly (outlet : Outlet ω ε) (fit : Label → Prop) : Prop :=
  ∀ name world source after, outlet.load name world = .ok (some source) after →
    SourceFits fit source

/-- The loader has no partials but those that stay within the names. -/
def Outlet.Supplies (outlet : Outlet ω ε) (names : Set String) : Prop :=
  ∀ name world source after, outlet.load name world = .ok (some source) after →
    SourceWithin names source

/-- States of two contexts that go together, and the same world otherwise. -/
structure Outlet.Across (related : κ → ι → Prop) (whole : κ × ω) (other : ι × ω) : Prop where
  context : related whole.1 other.1
  world : whole.2 = other.2

/-- Stacks of values that are related one by one, and the same world otherwise. -/
abbrev Outlet.Beside (related : Value ν → Value μ → Prop) :
    ContextStack ν × ω → ContextStack μ × ω → Prop :=
  Outlet.Across (ContextStack.Alike related)

theorem matches_zoom_outlet {α : Type} {related : κ → ι → Prop} {answers : α → α → Prop}
    {action : EStateM ε ω α} (h : ∀ world answer after, action world = .ok answer after →
      answers answer answer) :
    Matches answers (Outlet.Across related)
      (zoom Prod.snd (fun world (whole : κ × ω) => (whole.1, world)) id action)
      (zoom Prod.snd (fun world (whole : ι × ω) => (whole.1, world)) id action) := by
  intro whole beside hw
  simp only [zoom, ← hw.world]
  cases ha : action whole.2 with
  | ok answer after => exact .ok (h _ _ _ ha) ⟨hw.context, rfl⟩
  | error error after => exact .error ⟨hw.context, rfl⟩

theorem matches_load_outlet {related : κ → ι → Prop} {outlet : Outlet ω ε} {fit : Label → Prop}
    (hl : outlet.SuppliesOnly fit) (name : String) :
    Matches (fun answer reply => answer = reply ∧ ∀ source ∈ answer, SourceFits fit source)
      (Outlet.Across related)
      (zoom Prod.snd (fun world (whole : κ × ω) => (whole.1, world)) id (outlet.load name))
      (zoom Prod.snd (fun world (whole : ι × ω) => (whole.1, world)) id (outlet.load name)) := by
  refine matches_zoom_outlet fun world answer after h => ⟨rfl, fun source hs => ?_⟩
  rw [Option.mem_def.1 hs] at h
  exact hl name world source after h

theorem Outlet.host_alike (outlet : Outlet ω ε) (embed : ContextError → ε) {graph : Graph ν}
    {graph' : Graph μ} {names : Set String} {related : Value ν → Value μ → Prop}
    (ha : Admissible graph graph' names related) (hl : outlet.Supplies names) :
    (outlet.host embed graph).Alike (outlet.host embed graph') names related
      (Outlet.Beside related) where
  lookup name hn := by
    intro whole beside hw
    simp only [Outlet.host, Context.zoom, zoom, Context.ofStack]
    rcases (hw.context.lookup_agree ha hn).exists_eq with ⟨_, _, hf, hf', hr⟩ | ⟨error, hf, hf'⟩
    · rw [hf, hf']
      exact .ok hr hw
    · rw [hf, hf']
      exact .error hw
  write text := matches_zoom_outlet fun _ _ _ _ => rfl
  load name := matches_load_outlet hl name
  note notice _ _ hw := ⟨hw.context, congrArg (outlet.note notice) hw.world⟩
  scopes := by
    refine .some ⟨fun hv _ _ hw => .ok rfl ⟨hw.context.push hv, hw.world⟩, ?_⟩
    intro whole beside hw
    -- related stacks have pushed the same number of values, so a pop succeeds on both or on neither
    obtain ⟨⟨root, pushed⟩, world⟩ := whole
    obtain ⟨⟨root', pushed'⟩, world'⟩ := beside
    obtain ⟨⟨hroot, hpushed⟩, hworld⟩ := hw
    cases hpushed with
    | nil => exact .error ⟨⟨hroot, .nil⟩, hworld⟩
    | cons hv hrest => exact .ok hv ⟨⟨hroot, hrest⟩, hworld⟩

namespace Renderer

/-- Renderings for hosts that are alike have one result, find the same partials, and leave worlds that
go together. -/
theorem render_alike (renderer : Renderer) {host : Host ω ε ν} {other : Host τ ε μ}
    {graph : Graph ν} {graph' : Graph μ} {names : Set String} {related : Value ν → Value μ → Prop}
    {worlds : ω → τ → Prop} (ha : Admissible graph graph' names related)
    (hh : host.Alike other names related worlds) {document : Document}
    (hd : document.Every (Label.Within names))
    (hc : ∀ name known, renderer.cache.lookup name = some (some known) →
      known.Every (Label.Within names))
    {world : ω} {around : τ} (hw : worlds world around) :
    let rendering := renderer.render host graph document world
    let beside := renderer.render other graph' document around
    rendering.result = beside.result ∧ rendering.renderer = beside.renderer ∧
      worlds rendering.world beside.world :=
  renderer.render_of_peers hh.peers ((Render.twins_of_alike hh).simulates ha renderer.options) hd
    hc hw

/-- **Rendering depends only on what the template can name.** Over two pieces of data that the names of
the template cannot tell apart, and with the same sink and loader, the renderings make the same calls
and end in the same way. -/
theorem render_indifferent (renderer : Renderer) (outlet : Outlet ω ε) (embed : ContextError → ε)
    {graph : Graph ν} {graph' : Graph μ} {names : Set String} {related : Value ν → Value μ → Prop}
    (ha : Admissible graph graph' names related) (hl : outlet.Supplies names) {document : Document}
    (hd : document.Every (Label.Within names))
    (hc : ∀ name known, renderer.cache.lookup name = some (some known) →
      known.Every (Label.Within names))
    {datum : Datum ν} {datum' : Datum μ} {stack : ContextStack ν} {stack' : ContextStack μ}
    (hs : ContextStack.ofDatum graph datum = .ok stack)
    (hs' : ContextStack.ofDatum graph' datum' = .ok stack') (hr : related stack.root stack'.root)
    (world : ω) :
    (let rendering := renderer.render (outlet.host embed graph) graph document (stack, world)
      let other := renderer.render (outlet.host embed graph') graph' document (stack', world)
      rendering.result = other.result ∧ rendering.renderer = other.renderer ∧
        rendering.world.2 = other.world.2) ∧
      let rendering :=
        renderer.render (outlet.host embed graph).recorded graph document ((stack, world), [])
      let other :=
        renderer.render (outlet.host embed graph').recorded graph' document ((stack', world), [])
      rendering.result = other.result ∧
        List.Forall₂ (Call.Alike related) rendering.world.2 other.world.2 := by
  have hstack : stack.Alike related stack' := by
    refine ⟨hr, ?_⟩
    rw [ContextStack.pushed_of_ofDatum hs, ContextStack.pushed_of_ofDatum hs']
    exact .nil
  have hw : Outlet.Beside related (stack, world) (stack', world) := ⟨hstack, rfl⟩
  have hw' : RecordsAlike related (Outlet.Beside related) ((stack, world), []) ((stack', world), []) :=
    ⟨hw, .nil⟩
  have hh := outlet.host_alike embed ha hl
  obtain ⟨hresult, hrenderer, hworld⟩ := renderer.render_alike ha hh hd hc hw
  obtain ⟨hresult', _, hcalls⟩ := renderer.render_alike ha hh.recorded hd hc hw'
  exact ⟨⟨hresult, hrenderer, hworld.world⟩, hresult', hcalls.calls⟩

/-- A mapping that holds itself. -/
def loopGraph : Graph Unit := fun _ =>
  .mapping [(.text "up", .container ()), (.text "n", .scalar (.text "x"))]

/-- Two mappings that hold each other, and more besides. -/
def pairGraph : Graph Bool := fun first =>
  .mapping [(.text "n", .scalar (.text "x")), (.text "m", .scalar .null),
    (.text "up", .container !first)]

inductive Unrolls : Value Unit → Value Bool → Prop
  | text (content : String) : Unrolls (.text content) (.text content)
  | mapping (first : Bool) {value : Value Unit} {beside : Value Bool}
    (hv : Value.wrap loopGraph (.container ()) = .ok value)
    (hb : Value.wrap pairGraph (.container first) = .ok beside) : Unrolls value beside

theorem admissible_unrolls : Admissible loopGraph pairGraph {"up", "n"} Unrolls where
  kind h := by
    cases h with
    | text => rfl
    | mapping first hv hb =>
      cases hv
      cases hb
      rfl
  text h := by
    cases h with
    | text => rfl
    | mapping first hv hb => cases hv
  bool h := by
    cases h with
    | mapping first hv hb => cases hv
  items h := by
    cases h with
    | mapping first hv hb => cases hv
  fields h name hn := by
    cases h with
    | mapping first hv hb =>
      cases hv
      cases hb
      -- one name leads round the loop to the other mapping, and the other one to the text in both
      rcases hn with rfl | rfl
      · exact .ok (.some (.mapping (!first) rfl rfl))
      · exact .ok (.some (.text "x"))

/-- `{{up.up.n}}` and a section over `up` with `{{n}}` in it. -/
def unrolledDocument : Document :=
  ⟨[⟨.tag ⟨"up.up.n", .escaped, 0⟩, []⟩,
    ⟨.tag ⟨"up", .sectionBegin, 11⟩, [⟨.tag ⟨"n", .escaped, 18⟩, []⟩]⟩], ""⟩

theorem unrolledDocument_within : unrolledDocument.Every (Label.Within {"up", "n"}) := by
  have hpath : ∀ part ∈ ContextStack.segments "up.up.n", part ∈ ({"up", "n"} : Set String) := by
    show ∀ part ∈ ["up", "up", "n"], part ∈ ({"up", "n"} : Set String)
    simp
  have hup : ∀ part ∈ ContextStack.segments "up", part ∈ ({"up", "n"} : Set String) := by
    show ∀ part ∈ ["up"], part ∈ ({"up", "n"} : Set String)
    simp
  have hn : ∀ part ∈ ContextStack.segments "n", part ∈ ({"up", "n"} : Set String) := by
    show ∀ part ∈ ["n"], part ∈ ({"up", "n"} : Set String)
    simp
  refine List.forall_mem_cons.2 ⟨.intro hpath nofun, List.forall_mem_singleton.2 (.intro hup ?_)⟩
  exact List.forall_mem_singleton.2 (.intro hn nofun)

def listOutlet : Outlet (List String) ContextError where
  write text := modify (text :: ·)
  load _ := pure none
  note _ := id

theorem render_indifferent_unrolled :
    (render {} (listOutlet.host id loopGraph) loopGraph unrolledDocument
      (⟨.object (.mapping [(.text "up", .container ()), (.text "n", .scalar (.text "x"))]), []⟩,
        [])).world.2 = ["x", "x"] := by
  have hl : listOutlet.Supplies {"up", "n"} := fun _ _ _ _ h => nomatch h
  have hs : ContextStack.ofDatum loopGraph (.container ()) = .ok _ := rfl
  have hs' : ContextStack.ofDatum pairGraph (.container true) = .ok _ := rfl
  have h := render_indifferent {} listOutlet id admissible_unrolls hl unrolledDocument_within nofun
    hs hs' (.mapping true rfl rfl) []
  rw [h.1.2.2, render_eq_of_ends ⟨12, rfl⟩]
  rfl

end Renderer

end Stencil

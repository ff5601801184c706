import Stencil.Proofs.Data.Parts
import Stencil.Proofs.Data.Written
import Stencil.Proofs.Render.Indifference

/-!
# Flat data

A flat mapping has texts for its keys, and for its values only what is written as some text: texts that
are not empty, numbers, and true. Such a mapping can be a context without scopes, or it can be the root
of a stack of values, and for names without dots it makes no difference. Both find the same values
(`lookup_flat`). All of these are true and none of them makes a scope, so a section is rendered once or
not at all, with scopes as without them (`sectionPlan_of_inline`), and the stack never grows.

Keys that are no texts would make a difference, for a stack finds them by how they are written; so
would empty texts and false, which are found but not true, and containers, which make scopes.
-/

set_option autoImplicit false

namespace Stencil

open Walk

variable {κ ω τ ε ν : Type}

/-! ## Values in the flow of a text -/

/-- Text that is not empty, or true. -/
inductive Value.Inline : Value ν → Prop
  | text {content : String} (h : content ≠ "") : Inline (.text content)
  | yes : Inline (.bool true)

/-- Text that is not empty, a number, or true. What is foreign counts by how it is written. -/
inductive Datum.Plain : Datum ν → Prop
  | text {content : String} (h : content ≠ "") : Plain (.scalar (.text content))
  | int (value : Int) : Plain (.scalar (.int value))
  | float (value : Double) : Plain (.scalar (.float value))
  | yes : Plain (.scalar (.bool true))
  | foreign {value : Foreign} (h : value.text ≠ "") : Plain (.scalar (.foreign value))

/-- Every key is a text, and every value is plain. -/
structure Flat (entries : List (Literal × Datum ν)) : Prop where
  keys : ∀ entry ∈ entries, entry.1.text?.isSome
  values : ∀ entry ∈ entries, entry.2.Plain

theorem ne_empty_of_writeInteger {value : Int} {content : String}
    (h : writeInteger value = .ok content) : content ≠ "" := by
  unfold writeInteger at h
  split at h
  · cases h
    cases value with
    | ofNat size => exact Nat.repr_ne_empty
    | negSucc size =>
      show "-" ++ Nat.repr (size + 1) ≠ ""
      simp
  · cases h

theorem Double.write_ne_nil (layout : Layout) (digits : List Char) (place : Int) :
    layout.write digits place ≠ [] := by
  unfold Layout.write
  dsimp only
  split
  · split <;> simp
  · simp

theorem Double.text_ne_empty (x : Double) : x.text ≠ "" := by
  have hne : ∀ {chars : List Char}, chars ≠ [] → String.ofList chars ≠ "" := by simp
  cases x with
  | notANumber => decide
  | infinite negative => cases negative <;> decide
  | finite negative mantissa exponent =>
    exact hne (List.append_ne_nil_of_right_ne_nil _ (write_ne_nil _ _ _))

theorem inline_of_wrap {graph : Graph ν} {datum : Datum ν} {value : Value ν} (hd : datum.Plain)
    (hw : Value.wrap graph datum = .ok value) : value.Inline := by
  cases hd with
  | text h =>
    cases hw
    exact .text h
  | int number =>
    have hmap : (writeInteger number).map Value.text = .ok value := hw
    obtain ⟨content, hc, rfl⟩ := exists_eq_of_map hmap
    exact .text (ne_empty_of_writeInteger hc)
  | float number =>
    cases hw
    exact .text number.text_ne_empty
  | yes =>
    cases hw
    exact .yes
  | foreign h =>
    cases hw
    exact .text h

namespace Flat

variable {graph : Graph ν} {entries : List (Literal × Datum ν)}

theorem inline_of_lookupKey (hf : Flat entries) {name : String} {value : Value ν}
    (hl : Context.lookupKey graph entries name = .ok (some value)) : value.Inline := by
  rw [Context.lookupKey] at hl
  cases he : entries.find? (fun entry => entry.1.text? == some name) with
  | none =>
    rw [he] at hl
    cases hl
  | some entry =>
    rw [he] at hl
    obtain ⟨found, hw, hv⟩ := exists_eq_of_map hl
    cases hv
    exact inline_of_wrap (hf.values entry (List.mem_of_find?_eq_some he)) hw

/-- No key answers to how it is written. -/
theorem findWritten_eq (hk : ∀ entry ∈ entries, entry.1.text?.isSome) (name : String) :
    findWritten name entries = .ok none := by
  induction entries with
  | nil => rfl
  | cons entry rest ih =>
    obtain ⟨hkey, hrest⟩ := List.forall_mem_cons.1 hk
    rw [findWritten, if_pos hkey]
    exact ih hrest

/-- **A stack over a flat mapping finds what the mapping has.** -/
theorem lookup_flat (hf : Flat entries) {name : String} (hn : '.' ∉ name.toList) :
    (⟨.object (.mapping entries), []⟩ : ContextStack ν).lookup graph name =
      Context.lookupKey graph entries name := by
  have hfield : (Value.object (.mapping entries)).field graph name =
      Context.lookupKey graph entries name := by
    simp only [Value.field, Fields.get?, Context.lookupKey]
    cases entries.find? (fun entry => entry.1.text? == some name) with
    | some entry => rfl
    | none =>
      simp only [findWritten_eq hf.keys]
      rfl
  rw [ContextStack.lookup_of_not_mem hn]
  show ContextStack.findFirst graph name [.object (.mapping entries)] = _
  rw [ContextStack.findFirst, hfield]
  -- the mapping is the only value that is asked
  rcases Context.lookupKey graph entries name with error | (_ | value) <;> rfl

end Flat

/-! ## Sections over such values -/

namespace Render

/-- With scopes or without, a section over such a value is rendered once, where it stands. -/
theorem sectionPlan_of_inline {value : Value ν} (h : value.Inline) (isScoped : Bool) :
    SectionPlan.of isScoped (some value) = .plain := by
  cases h with
  | @text content hne =>
    have htruthy : (Value.text content : Value ν).isTruthy = true := by
      simpa [Value.isTruthy] using hne
    cases isScoped <;> simp [SectionPlan.of, htruthy]
  | yes => cases isScoped <;> rfl

/-- The same value on both sides, and one that makes no scope. -/
def SameInline (value other : Value ν) : Prop := value = other ∧ value.Inline

theorem admissible_sameInline (graph : Graph ν) (names : Set String) :
    Admissible graph graph names SameInline where
  kind h := congrArg Value.kind h.1
  text h := Value.text.inj h.1
  bool h := Value.bool.inj h.1
  items h := nomatch h.2
  fields h := nomatch h.2

/-- No two values go together. -/
def Never (_ _ : Value ν) : Prop := False

theorem admissible_never (graph : Graph ν) (names : Set String) :
    Admissible graph graph names Never where
  kind h := h.elim
  text h := h.elim
  bool h := h.elim
  items h := h.elim
  fields h := h.elim

variable {host : Host ω ε ν} {other : Host τ ε ν} {fit : Label → Prop}
  {passes : Pass ω → Pass τ → Prop}

/-- If all that names are found to be makes no scopes, walks go side by side, whichever of the hosts
has scopes. -/
theorem simulates_inline (h : Peers host other fit SameInline passes) (options : RenderOptions)
    (graph : Graph ν) :
    (visitor options host graph).Simulates (Node.Every fit) (Hook.Alike Never) passes
      (visitor options other graph) where
  children hn := hn.children
  visit hn depth := by
    refine h.visit (admissible_sameInline graph ∅) (admissible_never graph ∅) (fun hfound => ?_)
      options hn depth
    -- values that make no scopes are asked for by a section once and without a hook, be there scopes or
    -- not
    cases hfound with
    | none => exact .absent
    | some hv =>
      obtain ⟨rfl, hinline⟩ := hv
      rw [sectionPlan_of_inline hinline, sectionPlan_of_inline hinline]
      exact .plain
  enter hh := by
    cases hh with
    | inclusion => exact h.recount (· + 1)
    | scope hv => exact hv.elim
  leave hh := by
    cases hh with
    | inclusion => exact h.recount (· - 1)
    | scope hv => exact hv.elim

end Render

/-! ## The two contexts over a flat mapping -/

/-- The label is no tag with a dot in its name. -/
def Label.Dotless : Label → Prop
  | .tag named => '.' ∉ named.name.toList
  | _ => True

section Contexts

variable {graph : Graph ν} {entries : List (Literal × Datum ν)} {outlet : Outlet ω ε}

/-- The stack has the mapping for its root, and nothing else on it. -/
def StackOf (entries : List (Literal × Datum ν)) (_ : κ) (stack : ContextStack ν) : Prop :=
  stack = ⟨.object (.mapping entries), []⟩

theorem Flat.peers (hf : Flat entries) (hl : outlet.SuppliesOnly Label.Dotless)
    (embed : ContextError → ε) :
    (outlet.over (Context.flat graph entries : Context κ ContextError ν) embed).Peers
      (outlet.host embed graph) Label.Dotless Render.SameInline
      (Outlet.Across (StackOf entries)) where
  lookup tag ht := by
    rintro ⟨state, world⟩ ⟨_, _⟩ ⟨rfl, rfl⟩
    -- in the stack the mapping is the only frame, and a name without a dot is one of its keys
    have hlookup := @Flat.lookup_flat _ graph _ hf tag.name ht
    simp only [Outlet.over, Outlet.host, Context.zoom, zoom, Context.flat, Context.ofStack, hlookup]
    cases hkey : Context.lookupKey graph entries tag.name with
    | error error => exact .error ⟨rfl, rfl⟩
    | ok found =>
      refine .ok ?_ ⟨rfl, rfl⟩
      cases found with
      | none => exact .none
      | some value => exact .some ⟨rfl, hf.inline_of_lookupKey hkey⟩
  write text := matches_zoom_outlet fun _ _ _ _ => rfl
  load name := matches_load_outlet hl name
  note notice _ _ hw := ⟨hw.context, congrArg (outlet.note notice) hw.world⟩

end Contexts

theorem eq_of_callsAlike {calls others : List (Call ν)}
    (h : List.Forall₂ (Call.Alike Render.Never) calls others) : calls = others := by
  refine List.forall₂_eq_eq_eq ▸ h.imp fun call other hc => ?_
  cases hc with
  | push hv => exact hv.elim
  | lookup | pop | write | load | note => rfl

namespace Renderer

/-- **Over flat data, scopes make no difference.** If no tag has a dot in its name, neither in the
document nor in any partial that can be loaded, then rendering over a flat mapping and rendering over
the stack with this mapping for its root make the same calls and end in the same way. -/
theorem render_flat (renderer : Renderer) (outlet : Outlet ω ε) (embed : ContextError → ε)
    {graph : Graph ν} {reference : ν} {entries : List (Literal × Datum ν)} {ordered : Bool}
    (hm : graph reference = .mapping entries ordered) (hf : Flat entries)
    (hl : outlet.SuppliesOnly Label.Dotless) {document : Document}
    (hd : document.Every Label.Dotless)
    (hc : ∀ name known, renderer.cache.lookup name = some (some known) → known.Every Label.Dotless) :
    ∃ stack, ContextStack.ofDatum graph (.container reference) = .ok stack ∧
      ∀ (state : κ) (world : ω),
        let flat := outlet.over (Context.flat graph entries) embed
        let standard := outlet.host embed graph
        (let rendering := renderer.render flat graph document (state, world)
          let other := renderer.render standard graph document (stack, world)
          rendering.result = other.result ∧ rendering.renderer = other.renderer ∧
            rendering.world.2 = other.world.2) ∧
          let rendering := renderer.render flat.recorded graph document ((state, world), [])
          let other := renderer.render standard.recorded graph document ((stack, world), [])
          rendering.result = other.result ∧ rendering.world.2 = other.world.2 := by
  refine ⟨⟨.object (.mapping entries), []⟩, ?_, fun state world => ?_⟩
  · simp only [ContextStack.ofDatum, Value.wrap, hm]
    rfl
  · have hpeers := @Flat.peers κ _ _ _ graph _ _ hf hl embed
    -- the argument is made twice, for the hosts and for their records, since these are worlds of their
    -- own
    have hrecorded := hpeers.recorded Render.Never
    have hw : Outlet.Across (StackOf entries) (state, world)
        ((⟨.object (.mapping entries), []⟩ : ContextStack ν), world) := ⟨rfl, rfl⟩
    obtain ⟨hresult, hrenderer, hworld⟩ := renderer.render_of_peers hpeers
      (Render.simulates_inline (Render.surroundings_of_peers hpeers) renderer.options graph) hd hc hw
    have hw' : RecordsAlike (Render.Never : Value ν → Value ν → Prop)
        (Outlet.Across (StackOf entries)) ((state, world), [])
        ((⟨.object (.mapping entries), []⟩, world), []) := ⟨hw, .nil⟩
    obtain ⟨hresult', _, hcalls⟩ := renderer.render_of_peers hrecorded
      (Render.simulates_inline (Render.surroundings_of_peers hrecorded) renderer.options graph) hd hc hw'
    exact ⟨⟨hresult, hrenderer, hworld.world⟩, hresult', eq_of_callsAlike hcalls.calls⟩

/-- Two texts, one of them under the empty name, and true under a digit. -/
def flatEntries : List (Literal × Datum Unit) :=
  [(.text "a", .scalar (.text "x")), (.text "", .scalar (.text "y")), (.text "0", .scalar (.bool true))]

def flatGraph : Graph Unit := fun _ => .mapping flatEntries

theorem flat_flatEntries : Flat flatEntries where
  keys := by simp [flatEntries, Literal.text, Literal.text?]
  values := by
    simp only [flatEntries, List.forall_mem_cons]
    exact ⟨.text (by decide), .text (by decide), .yes, List.forall_mem_nil _⟩

/-- A section over the digit, inverted ones over the empty name and a name that is not there, and a
partial that is not there. -/
def flatDocument : Document :=
  ⟨[⟨.tag ⟨"0", .sectionBegin, 0⟩, [⟨.tag ⟨"a", .escaped, 6⟩, []⟩]⟩,
    ⟨.tag ⟨"", .invertedBegin, 17⟩, [⟨.text "n" 22, []⟩]⟩,
    ⟨.tag ⟨"b", .invertedBegin, 28⟩, [⟨.tag ⟨"p", .inclusion, 34⟩, []⟩]⟩],
    "{{#0}}{{a}}{{/0}}{{^}}n{{/}}{{^b}}{{>p}}{{/b}}"⟩

theorem flatDocument_dotless : flatDocument.Every Label.Dotless := by
  have htag {name : String} (hn : '.' ∉ name.toList) (type : TagType) (position : Int) :
      Label.Dotless (.tag ⟨name, type, position⟩) := hn
  simp only [flatDocument, Document.Every, List.forall_mem_cons]
  refine ⟨.intro (htag (by decide) _ _) ?_, .intro (htag (by decide) _ _) ?_,
    .intro (htag (by decide) _ _) ?_, nofun⟩
  · exact List.forall_mem_singleton.2 (.intro (htag (by decide) _ _) nofun)
  · exact List.forall_mem_singleton.2 (.intro trivial nofun)
  · exact List.forall_mem_singleton.2 (.intro (htag (by decide) _ _) nofun)

theorem render_flat_digit :
    (render {} (listOutlet.host id flatGraph).recorded flatGraph flatDocument
      ((⟨.object (.mapping flatEntries), []⟩, []), [])).world.2 =
      [.lookup "0", .lookup "a", .write "x", .lookup "", .lookup "b", .load "p",
        .note (.partialMissing "p")] := by
  have hl : listOutlet.SuppliesOnly Label.Dotless := fun _ _ _ _ h => nomatch h
  obtain ⟨stack, hs, h⟩ := @render_flat Unit _ _ _ {} listOutlet id flatGraph () flatEntries false rfl
    flat_flatEntries hl flatDocument flatDocument_dotless nofun
  cases hs
  rw [← (h () []).2.2, render_eq_of_ends ⟨20, rfl⟩]
  rfl

end Renderer

end Stencil

import Stencil.Proofs.Data.Parts
import Stencil.Proofs.Render.Calls
import Stencil.Proofs.Render.Complement

/-!
# Dotted names and nested sections

A dotted name is looked up in one go: its first part picks a value from the stack, and the other parts
are followed from there. Sections do it in steps. Each of them looks its own name up and pushes what it
finds, and the next name is looked up in the whole stack, which has grown by then. The two agree because
what was pushed last is asked first: it has the field that the path goes on with, so it does not matter
what the values further out would have answered (`lookup_push_of_field`).

`Leads` is the way through the sections, and a dotted name that leads to a value through objects is one
(`leads_of_lookup`). Along it, nested sections write what the variable at the end of it writes, and every
scope is left again (`renderNode_within`).
-/

set_option autoImplicit false

namespace Stencil

open Walk

variable {ω ε ν : Type}

/-! ## The way through sections -/

/-- The node inside of sections of these names and positions, the first one outermost. -/
def Node.within : List (String × Int) → Node → Node
  | [], node => node
  | (name, position) :: inner, node => ⟨.tag ⟨name, .sectionBegin, position⟩, [within inner node]⟩

/-- Each section is over an object, and the name is found in the innermost of them to be the value. -/
inductive Leads (graph : Graph ν) (name : String) (value : Value ν) :
    ContextStack ν → List (String × Int) → Prop
  | here {stack : ContextStack ν} (hf : stack.lookup graph name = .ok (some value)) :
    Leads graph name value stack []
  | inside {stack : ContextStack ν} {part : String} {position : Int} {fields : Fields ν}
    {inner : List (String × Int)} (hf : stack.lookup graph part = .ok (some (.object fields)))
    (hl : Leads graph name value (stack.push (.object fields)) inner) :
    Leads graph name value stack ((part, position) :: inner)

theorem exists_fields {value : Value ν} (h : value.kind = .object) :
    ∃ fields, value = .object fields := by
  cases value with
  | object fields => exact ⟨fields, rfl⟩
  | text | bool | list => cases h

section Leads

variable {graph : Graph ν} {name : String} {value : Value ν}

/-- A path that is followed through objects leads through sections, once the value that it starts from
has been pushed. -/
theorem leads_of_follow {start : Value ν} {sections : List (String × Int)} (hn : Undotted name)
    (hs : ∀ part ∈ sections.map Prod.fst, Undotted part)
    (hf : start.follow graph (sections.map Prod.fst ++ [name]) = .ok (some value))
    (ho : ∀ n < sections.length, ∃ reached,
      start.follow graph ((sections.map Prod.fst).take (n + 1)) = .ok (some reached) ∧
        reached.kind = .object)
    (stack : ContextStack ν) : Leads graph name value (stack.push start) sections := by
  induction sections generalizing start stack with
  | nil =>
    rw [List.map_nil, List.nil_append, follow_singleton] at hf
    exact .here (ContextStack.lookup_push_of_field hn.not_mem hf)
  | cons first inner ih =>
    obtain ⟨part, position⟩ := first
    obtain ⟨hpart, hinner⟩ := List.forall_mem_cons.1 hs
    -- the first of the prefixes is the part alone
    obtain ⟨reached, hreached, hkind⟩ := ho 0 (Nat.zero_lt_succ _)
    obtain ⟨fields, rfl⟩ := exists_fields hkind
    have hfield : start.field graph part = .ok (some (.object fields)) := by
      rw [List.map_cons, List.take_succ_cons, List.take_zero, follow_singleton] at hreached
      exact hreached
    have hnext (path : List String) :
        start.follow graph (part :: path) = (Value.object fields).follow graph path := by
      rw [Value.follow, hfield]
    refine .inside (ContextStack.lookup_push_of_field hpart.not_mem hfield) (ih hinner ?_ ?_ _)
    · rw [← hnext]
      exact hf
    · intro n hlt
      obtain ⟨reached, hreached, hkind⟩ := ho (n + 1) (Nat.succ_lt_succ hlt)
      rw [List.map_cons, List.take_succ_cons, hnext] at hreached
      exact ⟨reached, hreached, hkind⟩

/-- **A dotted name that leads to a value through objects leads through sections**, one for each of its
parts but the last. -/
theorem leads_of_lookup {stack : ContextStack ν} {sections : List (String × Int)}
    (hs : ∀ part ∈ sections.map Prod.fst ++ [name], Undotted part)
    (hf : stack.lookup graph (dotted (sections.map Prod.fst ++ [name])) = .ok (some value))
    (ho : ∀ n < sections.length, ∃ reached,
      stack.lookup graph (dotted ((sections.map Prod.fst).take (n + 1))) = .ok (some reached) ∧
        reached.kind = .object) : Leads graph name value stack sections := by
  cases sections with
  | nil =>
    rw [List.map_nil, List.nil_append, dotted_singleton] at hf
    exact .here hf
  | cons first inner =>
    obtain ⟨part, position⟩ := first
    obtain ⟨hpart, hrest⟩ := List.forall_mem_cons.1 hs
    have hinner : ∀ part ∈ inner.map Prod.fst, Undotted part := fun part hm =>
      hrest part (List.mem_append_left _ hm)
    have hname : Undotted name := hrest name (List.mem_append_right _ List.mem_cons_self)
    obtain ⟨reached, hreached, hkind⟩ := ho 0 (Nat.zero_lt_succ _)
    obtain ⟨fields, rfl⟩ := exists_fields hkind
    rw [List.map_cons, List.take_succ_cons, List.take_zero, dotted_singleton] at hreached
    -- from the value that the first part picks, the rest of the name is followed
    have hnext {path : List String} (hp : ∀ part ∈ path, Undotted part) :
        stack.lookup graph (dotted (part :: path)) = (Value.object fields).follow graph path := by
      rw [ContextStack.lookup_of_not_mem hpart.not_mem] at hreached
      exact ContextStack.lookup_dotted hpart hp hreached
    refine .inside hreached (leads_of_follow hname hinner ?_ ?_ stack)
    · exact (hnext hrest).symm.trans hf
    · intro n hlt
      obtain ⟨reached, hreached, hkind⟩ := ho (n + 1) (Nat.succ_lt_succ hlt)
      rw [List.map_cons, List.take_succ_cons,
        hnext fun part hm => hinner part (List.mem_of_mem_take hm)] at hreached
      exact ⟨reached, hreached, hkind⟩

end Leads

/-! ## Rendering along the way -/

namespace Render

variable {options : RenderOptions} {host : Host ω ε ν} {graph : Graph ν} {depth : Nat}

/-- Whether what a variable of this type stands for is escaped. -/
def escapes (options : RenderOptions) (type : TagType) : Bool :=
  options.escape && type == .escaped

theorem renderAll_singleton (node : Node) :
    Direct.renderAll options host graph depth [node] =
      Direct.renderNode options host graph depth node := by
  rw [Direct.renderAll, Direct.renderAll, bind_unit]

/-- A variable whose name is found writes the value, and that is all. -/
theorem renderNode_variable {name : String} {value : Value ν} {type : TagType} {pass : Pass ω}
    (hn : name ≠ "") (ht : type = .escaped ∨ type = .unescaped) (position : Int)
    (hl : lift (host.context.lookup name) pass = .ok (some value) pass) :
    Direct.renderNode options host graph depth ⟨.tag ⟨name, type, position⟩, []⟩ pass =
      lift (host.write (substitution (escapes options type) value)) pass := by
  have hne : name.isEmpty = false := by simpa using hn
  have hsubstitute (escape : Bool) :
      substitute host name escape pass = lift (host.write (substitution escape value)) pass := by
    simp only [substitute, hne, bind, EStateM.bind, hl, Bool.false_eq_true, if_false]
  rcases ht with rfl | rfl
  · have hescape : escapes options .escaped = options.escape := Bool.and_true _
    rw [hescape, ← hsubstitute, Direct.renderNode]
    simp only [Direct.renderAll, Direct.renderVariable_eq_substitute, bind_unit]
  · have hescape : escapes options .unescaped = false := Bool.and_false _
    rw [hescape, ← hsubstitute, Direct.renderNode]
    simp only [Direct.renderAll, Direct.renderVariable_eq_substitute, bind_unit]

/-- A section over an object renders what is in it with the object pushed. -/
theorem renderNode_section_of_object {name : String} {fields : Fields ν} {pass : Pass ω}
    {scopes : Scopes ω ε ν} (hs : host.context.scopes = some scopes) (position : Int) (node : Node)
    (hl : lift (host.context.lookup name) pass = .ok (some (.object fields)) pass) :
    Direct.renderNode options host graph depth ⟨.tag ⟨name, .sectionBegin, position⟩, [node]⟩ pass =
      Direct.inScope scopes (.object fields) (Direct.renderNode options host graph depth node) pass := by
  rw [Direct.renderNode]
  simp only [bind, EStateM.bind, Direct.ask_eq_lift, hl, Direct.sectionOver, hs, Value.isTruthy,
    renderAll_singleton]
  rfl

variable {outlet : Outlet ω ε} {embed : ContextError → ε}

theorem lift_lookup {name : String} {found : Option (Value ν)} {pass : Pass (ContextStack ν × ω)}
    (hf : pass.world.1.lookup graph name = .ok found) :
    lift ((outlet.host embed graph).context.lookup name) pass = .ok found pass := by
  have hl : (Context.ofStack graph).lookup name pass.world.1 = .ok found pass.world.1 := by
    simp only [Context.ofStack, hf]
  exact (Context.steady_ofStack graph).lift_lookup hl

theorem lift_write (text : String) (pass : Pass (ContextStack ν × ω)) :
    lift ((outlet.host embed graph).write text) pass =
      match outlet.write text pass.world.2 with
      | .ok u after => .ok u { pass with world := (pass.world.1, after) }
      | .error error after => .error (.host error) { pass with world := (pass.world.1, after) } := by
  simp only [lift, Outlet.host, Stencil.zoom]
  cases outlet.write text pass.world.2 <;> rfl

/-- To write in the scope of a value is to write outside of it. -/
theorem inScope_write {scopes : Scopes (ContextStack ν × ω) ε ν}
    (hs : (outlet.host embed graph).context.scopes = some scopes) (value : Value ν) (text : String)
    {body : Action (ContextStack ν × ω) ε Unit} {pass : Pass (ContextStack ν × ω)}
    (hb : body { pass with world := (pass.world.1.push value, pass.world.2) } =
      lift ((outlet.host embed graph).write text)
        { pass with world := (pass.world.1.push value, pass.world.2) }) :
    Direct.inScope scopes value body pass = lift ((outlet.host embed graph).write text) pass := by
  cases hs
  rw [lift_write] at hb ⊢
  change Direct.guarded body _ { pass with world := (pass.world.1.push value, pass.world.2) } = _
  rw [Direct.guarded, hb]
  -- the scope is left whether or not the text could be written
  cases outlet.write text pass.world.2 <;> rfl

/-- **Along the way, nested sections write what the variable in them does**, and they leave the stack as
it was. -/
theorem renderNode_within {name : String} {value : Value ν} {stack : ContextStack ν}
    {sections : List (String × Int)} (h : Leads graph name value stack sections) (hn : name ≠ "")
    {type : TagType} (ht : type = .escaped ∨ type = .unescaped) (position : Int)
    {pass : Pass (ContextStack ν × ω)} (hp : pass.world.1 = stack) :
    Direct.renderNode options (outlet.host embed graph) graph depth
        (Node.within sections ⟨.tag ⟨name, type, position⟩, []⟩) pass =
      lift ((outlet.host embed graph).write (substitution (escapes options type) value)) pass := by
  induction h generalizing pass with
  | here hf =>
    subst hp
    exact renderNode_variable hn ht position (lift_lookup hf)
  | inside hf _ ih =>
    subst hp
    rw [Node.within, renderNode_section_of_object rfl _ _ (lift_lookup hf)]
    exact inScope_write rfl _ _ (ih rfl)

end Render

/-! ## Whole renderings -/

/-- The stack of values in the world of an outlet. -/
def Outlet.seat (outlet : Outlet ω ε) (embed : ContextError → ε) (graph : Graph ν) :
    (outlet.host embed graph).Seat graph where
  get := Prod.fst
  set stack whole := (stack, whole.2)
  embed := embed
  context_eq := rfl
  get_set _ _ := rfl
  get_write text whole := fst_stateOf_zoom (outlet.write text) whole
  get_load name whole := fst_stateOf_zoom (outlet.load name) whole
  get_note _ _ := rfl

namespace Renderer

/-- What comes of writing one text and doing nothing else. -/
def writing (renderer : Renderer) (outlet : Outlet ω ε) (text : String) (stack : ContextStack ν)
    (world : ω) : Rendering (ContextStack ν × ω) ε :=
  match outlet.write text world with
  | .ok _ after => ⟨.ok (), renderer, (stack, after)⟩
  | .error error after => ⟨.error (.host error), renderer, (stack, after)⟩

section Writing

variable {renderer : Renderer} {outlet : Outlet ω ε} {embed : ContextError → ε} {graph : Graph ν}
  {stack : ContextStack ν}

theorem render_of_leads {name : String} {value : Value ν} {sections : List (String × Int)}
    (h : Leads graph name value stack sections) (hn : name ≠ "") {type : TagType}
    (ht : type = .escaped ∨ type = .unescaped) (position : Int) (source : String) (world : ω) :
    renderer.render (outlet.host embed graph) graph
        ⟨[Node.within sections ⟨.tag ⟨name, type, position⟩, []⟩], source⟩ (stack, world) =
      renderer.writing outlet (Render.substitution (Render.escapes renderer.options type) value) stack
        world := by
  rw [renderer.render_eq_of_levels (outlet.seat embed graph).levels graph _ (Nat.zero_le _),
    renderDirectly]
  dsimp only
  rw [Render.renderAll_singleton, Render.renderNode_within h hn ht position rfl, Render.lift_write,
    writing]
  cases outlet.write (Render.substitution (Render.escapes renderer.options type) value) world <;> rfl

/-- **A dotted name is the same as nested sections over objects.** If the name is found, and each value
on the way to it is an object, then the variable and the nested sections both write the text of the
value, once, and leave the stack as it was. -/
theorem render_dotted {name : String} {value : Value ν} {sections : List (String × Int)}
    (hs : ∀ part ∈ sections.map Prod.fst ++ [name], Undotted part)
    (hf : stack.lookup graph (dotted (sections.map Prod.fst ++ [name])) = .ok (some value))
    (ho : ∀ n < sections.length, ∃ reached,
      stack.lookup graph (dotted ((sections.map Prod.fst).take (n + 1))) = .ok (some reached) ∧
        reached.kind = .object)
    {type : TagType} (ht : type = .escaped ∨ type = .unescaped) (position elsewhere : Int)
    (source other : String) (world : ω) :
    let host := outlet.host embed graph
    let variableAt := (⟨.tag ⟨dotted (sections.map Prod.fst ++ [name]), type, position⟩, []⟩ : Node)
    let nested := Node.within sections ⟨.tag ⟨name, type, elsewhere⟩, []⟩
    let text := Render.substitution (Render.escapes renderer.options type) value
    renderer.render host graph ⟨[variableAt], source⟩ (stack, world) =
        renderer.writing outlet text stack world ∧
      renderer.render host graph ⟨[nested], other⟩ (stack, world) =
        renderer.writing outlet text stack world := by
  have hname : Undotted name := hs name (List.mem_append_right _ List.mem_cons_self)
  have hne : dotted (sections.map Prod.fst ++ [name]) ≠ "" :=
    ContextStack.dotted_ne (by simp) hs rfl
  -- a variable by itself is the path without sections, so one lemma is used twice
  exact ⟨render_of_leads (.here hf) hne ht position source world,
    render_of_leads (leads_of_lookup hs hf ho) hname.ne_empty ht elsewhere other world⟩

end Writing

/-- Two mappings, one in the other, and each with a field of the name that is looked for. -/
def nestedGraph : Graph Bool := fun outer =>
  if outer then .mapping [(.text "b", .container false), (.text "c", .scalar (.text "x"))]
  else .mapping [(.text "c", .scalar (.text "<y>")), (.text "b", .scalar .null)]

/-- The outer mapping, below a value that has a field of the same name as the one that is looked for. -/
def nestedStack : ContextStack Bool :=
  ⟨.object (.mapping [(.text "a", .container true)]),
    [.object (.mapping [(.text "c", .scalar (.text "z"))])]⟩

theorem render_dotted_nested :
    (render {} (listOutlet.host id nestedGraph) nestedGraph
        ⟨[⟨.tag ⟨"a.b.c", .escaped, 0⟩, []⟩], "{{a.b.c}}"⟩ (nestedStack, [])).world =
      (nestedStack, ["&lt;y&gt;"]) ∧
    (render {} (listOutlet.host id nestedGraph) nestedGraph
        ⟨[⟨.tag ⟨"a", .sectionBegin, 0⟩,
          [⟨.tag ⟨"b", .sectionBegin, 6⟩, [⟨.tag ⟨"c", .escaped, 12⟩, []⟩]⟩]⟩],
          "{{#a}}{{#b}}{{c}}{{/b}}{{/a}}"⟩ (nestedStack, [])).world =
      (nestedStack, ["&lt;y&gt;"]) := by
  have hs : ∀ part ∈ ["a", "b", "c"], Undotted part := by
    simp only [List.forall_mem_cons]
    exact ⟨⟨by decide, by decide⟩, ⟨by decide, by decide⟩, ⟨by decide, by decide⟩, nofun⟩
  have hf : nestedStack.lookup nestedGraph (dotted ["a", "b", "c"]) = .ok (some (.text "<y>")) := rfl
  have ho : ∀ n < 2, ∃ reached,
      nestedStack.lookup nestedGraph (dotted (["a", "b"].take (n + 1))) = .ok (some reached) ∧
        reached.kind = .object
    | 0, _ => ⟨_, rfl, rfl⟩
    | 1, _ => ⟨_, rfl, rfl⟩
  have h := @render_dotted (List String) ContextError Bool {} listOutlet id nestedGraph nestedStack "c"
    (.text "<y>") [("a", 0), ("b", 6)] hs hf ho .escaped (.inl rfl) 0 12 "{{a.b.c}}"
    "{{#a}}{{#b}}{{c}}{{/b}}{{/a}}" []
  exact ⟨congrArg Rendering.world h.1, congrArg Rendering.world h.2⟩

end Renderer

end Stencil

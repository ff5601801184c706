import Stencil.Proofs.Render.Seat

/-!
# Rendering by recursion

This is what a rendering means, without a walk: a list of nodes is rendered one node after the other,
the body of a section is rendered on the spot, once for each of its scopes, between entering and
leaving it, and a partial is rendered where it stands. How deep partials are nested is an argument of
the recursion. Nothing here counts, queues or unwinds; the number of inclusions that a pass carries
is neither read nor changed. Each call of the host, the writing of a variable, and the loading, reading
and keeping of a partial are written out here once more, and each is shown to be what a visit does
(`ask_eq_lift`, `renderVariable_eq_substitute`, `documentOf_eq_partialDocument`).

The order of what can fail is part of the meaning. A list is turned into its items before the first
of them is entered, since an item without a value ends the rendering. A partial is loaded before what
stands under its tag is rendered, and rendered after that. A scope is left however its body ends.
-/

set_option autoImplicit false

namespace Stencil.Render.Direct

open Walk

variable {ω ε ν : Type}

/-- Calls the host. It acts on the world, and what it fails with is what the rendering fails with. -/
def ask {α : Type} (action : EStateM ε ω α) : Action ω ε α := fun pass =>
  match action pass.world with
  | .ok answer world => .ok answer { pass with world := world }
  | .error error world => .error (.host error) { pass with world := world }

/-- Does the second action however the first one ended, and then ends as the first one did. -/
def guarded (body leave : Action ω ε Unit) : Action ω ε Unit := fun pass =>
  match body pass with
  | .ok _ after => leave after
  | .error error after =>
    match leave after with
    | .ok _ left => .error error left
    | .error later left => .error later left

/-- Renders a body in the scope of a value. -/
def inScope (scopes : Scopes ω ε ν) (value : Value ν) (body : Action ω ε Unit) :
    Action ω ε Unit := do
  ask (scopes.push value)
  guarded body do
    let _ ← ask scopes.pop
    return ()

/-- Renders a body in the scope of one value after the other. -/
def inScopes (scopes : Scopes ω ε ν) (body : Action ω ε Unit) : List (Value ν) → Action ω ε Unit
  | [] => pure ()
  | value :: rest => do
    inScope scopes value body
    inScopes scopes body rest

variable (options : RenderOptions) (host : Host ω ε ν) (graph : Graph ν)

/-- Renders the body of a section whose name has this value. Without scopes nothing is asked of the
value. -/
def sectionOver (value : Value ν) (body : Action ω ε Unit) : Action ω ε Unit :=
  match host.context.scopes with
  | none => body
  | some scopes =>
    if value.isTruthy then
      match value with
      | .list _ =>
        match value.items graph with
        | .ok items => inScopes scopes body items
        | .error error => throw (.item error)
      | .object _ => inScope scopes value body
      | _ => body
    else pure ()

/-- Whether an inverted section is rendered. Without scopes nothing is asked of the value. -/
def isMissing (found : Option (Value ν)) : Bool :=
  match found, host.context.scopes with
  | none, _ => true
  | some _, none => false
  | some value, some _ => !value.isTruthy

/-- Renders a variable: the text of what its name is found to be, escaped or as it is. Nothing is
looked up for an empty name. -/
def renderVariable (name : String) (escape : Bool) : Action ω ε Unit :=
  if name = "" then pure ()
  else do
    match ← ask (host.context.lookup name) with
    | none => pure ()
    | some value =>
      if escape then ask (host.write (Text.escapeMarkup value.asText))
      else ask (host.write value.asText)

/-- Reports some notices in order. -/
def report : List Notice → Action ω ε Unit
  | [] => pure ()
  | notice :: rest => fun pass => report rest { pass with world := host.note notice pass.world }

/-- Keeps what a name of a partial turned out to be. -/
def keep (name : String) (found : Option Document) : Action ω ε Unit := fun pass =>
  .ok () { pass with cache := (name, found) :: pass.cache }

/-- Loads a partial and reads its source. That there is none is kept like a document, and a source that
cannot be read is not kept at all. -/
def loadDocument (name : String) : Action ω ε (Option Document) := do
  match ← ask (host.load name) with
  | none =>
    report host [.partialMissing name]
    keep name none
    return none
  | some source =>
    report host (Template.read source).notices
    match Template.parse source with
    | .error error => throw (.partialSyntax error)
    | .ok document =>
      keep name (some document)
      report host [.partialRead name]
      return some document

/-- The document of a partial, which is loaded unless it is known what there is of that name. -/
def documentOf (name : String) : Action ω ε (Option Document) := fun pass =>
  match pass.cache.lookup name with
  | some known => .ok known pass
  | none => loadDocument host name pass

mutual

/-- Renders one node, inside so many partials. -/
def renderNode (depth : Nat) (node : Node) : Action ω ε Unit :=
  match node.label with
  | .root => renderAll depth node.children
  | .text content _ => do
    ask (host.write content)
    renderAll depth node.children
  | .tag tag =>
    match tag.type with
    | .escaped => do
      renderVariable host tag.name options.escape
      renderAll depth node.children
    | .unescaped => do
      renderVariable host tag.name false
      renderAll depth node.children
    | .sectionBegin => do
      match ← ask (host.context.lookup tag.name) with
      | none => pure ()
      | some value => sectionOver host graph value (renderAll depth node.children)
    | .invertedBegin => do
      let found ← ask (host.context.lookup tag.name)
      if isMissing host found then renderAll depth node.children else pure ()
    | .inclusion =>
      if _hlimit : options.inclusionLimit ≤ depth then
        throw (.tooDeep tag.name options.inclusionLimit)
      else do
        let found ← documentOf host tag.name
        renderAll depth node.children
        match found with
        | none => pure ()
        | some document => renderAll (depth + 1) document.nodes
    | .comment | .sectionEnd | .switch | .invalid => renderAll depth node.children
termination_by ((options.inclusionLimit - depth).toNat, 2 * node.count)
decreasing_by
  all_goals simp_wf
  all_goals have := node.count_eq
  all_goals omega

/-- Renders nodes in order, inside so many partials. -/
def renderAll (depth : Nat) : List Node → Action ω ε Unit
  | [] => pure ()
  | node :: rest => do
    renderNode depth node
    renderAll depth rest
termination_by nodes => ((options.inclusionLimit - depth).toNat, 2 * Node.countAll nodes + 1)
decreasing_by
  all_goals simp_wf
  all_goals have := node.count_pos
  all_goals simp only [Node.countAll]
  all_goals omega

end

/-! ## What a visit does -/

section Visits

variable {options host graph}

theorem ask_eq_lift {α : Type} (action : EStateM ε ω α) : ask action = lift action := by
  funext pass
  cases h : action pass.world with
  | ok answer world => simp only [ask, lift, zoom, h]
  | error error world => simp only [ask, lift, zoom, h]

theorem guarded_eq (body leave : Action ω ε Unit) (pass : Pass ω) :
    guarded body leave pass =
      match leave (stateOf (body pass)) with
      | .ok _ left => withState left (body pass)
      | .error error left => .error error left := by
  cases hbody : body pass with
  | ok _ after => cases hleave : leave after <;> simp [guarded, stateOf, withState, hbody, hleave]
  | error _ after => cases hleave : leave after <;> simp [guarded, stateOf, withState, hbody, hleave]

theorem isMissing_some (value : Value ν) :
    isMissing host (some value) = (host.isScoped && !value.isTruthy) := by
  cases hs : host.context.scopes <;> simp [isMissing, Host.isScoped, hs]

/-- A visit writes a variable as the recursion does. -/
theorem renderVariable_eq_substitute (name : String) (escape : Bool) :
    renderVariable host name escape = substitute host name escape := by
  unfold renderVariable substitute
  by_cases hn : name = ""
  · simp [hn]
  · have hempty : name.isEmpty = false := by simpa using hn
    rw [if_neg hn, hempty, if_neg Bool.false_ne_true]
    simp only [ask_eq_lift]
    congr
    funext found
    cases found with
    | none => rfl
    | some value => cases escape <;> rfl

theorem report_eq_forM (notices : List Notice) : report host notices = notices.forM (note host) := by
  induction notices with
  | nil => rfl
  | cons notice rest ih =>
    funext pass
    rw [report, ih]
    rfl

/-- A visit gets a partial as the recursion does, from what is known or from the loader. -/
theorem documentOf_eq_partialDocument (name : String) :
    documentOf host name = partialDocument host name := by
  funext pass
  simp only [documentOf, partialDocument, bind, EStateM.bind, get_apply]
  cases pass.cache.lookup name with
  | some known => rfl
  | none =>
    simp only [loadDocument, ask_eq_lift, report_eq_forM, bind, EStateM.bind]
    cases lift (host.load name) pass with
    | error error after => rfl
    | ok source after =>
      cases source with
      | none => rfl
      | some source =>
        simp only [Template.parse]
        cases (Template.read source).notices.forM (note host) after with
        | error error reported => rfl
        | ok _ reported => cases (Template.read source).outcome <;> rfl

end Visits

end Direct

end Stencil.Render

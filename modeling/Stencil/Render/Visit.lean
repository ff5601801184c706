import Stencil.Render.Host
import Stencil.Template.Reading
import Stencil.Text.Markup
import Stencil.Walk.Machine

/-!
# Rendering as a walk

A document is rendered by walking it. Each visit writes what its node stands for. The body of a
section is not rendered on the spot: it is requested as a further walk, once for each scope that it
is to be rendered in, with a hook that enters the scope before the walk and leaves it after. A
partial is requested likewise, with a hook that counts how many inclusions are in progress.

Whether a section is rendered at all is decided by `SectionPlan.of`, for plain and inverted sections
alike. Without scopes, only whether the name is found counts.
-/

set_option autoImplicit false

namespace Stencil.Render

variable {ω ε ν : Type}

/-- The partials loaded so far; a name without a document is known not to be a partial. -/
abbrev Cache := List (String × Option Document)

/-- The state of a rendering. -/
structure Pass (ω : Type) where
  cache : Cache
  /-- How many inclusions of partials are in progress. -/
  inclusions : Nat
  world : ω

/-- An action of the host as an action of the rendering. -/
def lift {α : Type} (action : EStateM ε ω α) : EStateM (RenderError ε) (Pass ω) α :=
  zoom Pass.world (fun world pass => { pass with world := world }) .host action

/-- What is entered before a requested walk and left after it. -/
inductive Hook (ν : Type)
  | scope (value : Value ν)
  | inclusion

/-- How often the body of a section is rendered. -/
inductive SectionPlan (ν : Type)
  | absent
  /-- Once, in the scope that the section stands in. -/
  | plain
  /-- Once in each of the scopes that this value makes. -/
  | inScopes (value : Value ν)

/-- What becomes of a section, from what its name was found to be. -/
def SectionPlan.of (isScoped : Bool) : Option (Value ν) → SectionPlan ν
  | none => .absent
  | some value =>
    if !isScoped then .plain
    else if !value.isTruthy then .absent
    else
      match value with
      | .list _ => .inScopes value
      | .object _ => .inScopes value
      | _ => .plain

/-- Whether an inverted section is rendered. -/
def SectionPlan.isAbsent : SectionPlan ν → Bool
  | .absent => true
  | _ => false

/-- The values in whose scopes the body of a section is rendered: the items of a list, in order, or an
object by itself. -/
def sectionScopes (graph : Graph ν) (value : Value ν) : Except NumeralError (List (Value ν)) :=
  match value with
  | .list _ => value.items graph
  | _ => .ok [value]

/-- The text written for a value. -/
def substitution (escape : Bool) (value : Value ν) : String :=
  if escape then Text.escapeMarkup value.asText else value.asText

variable (options : RenderOptions) (host : Host ω ε ν) (graph : Graph ν)

def note (notice : Notice) : EStateM (RenderError ε) (Pass ω) Unit :=
  modify fun pass => { pass with world := host.note notice pass.world }

/-- Writes the value of a name, if it has one. -/
def substitute (name : String) (escape : Bool) : EStateM (RenderError ε) (Pass ω) Unit :=
  if name.isEmpty then pure ()
  else do
    match ← lift (host.context.lookup name) with
    | none => pure ()
    | some value => lift (host.write (substitution escape value))

/-- What becomes of the section of this name here. -/
def plan (name : String) : EStateM (RenderError ε) (Pass ω) (SectionPlan ν) := do
  return .of host.isScoped (← lift (host.context.lookup name))

/-- The document of a partial. What the loader answers is kept unless it cannot be read. -/
def partialDocument (name : String) : EStateM (RenderError ε) (Pass ω) (Option Document) := do
  match (← get).cache.lookup name with
  | some known => return known
  | none =>
    match ← lift (host.load name) with
    | none =>
      note host (.partialMissing name)
      modify fun pass => { pass with cache := (name, none) :: pass.cache }
      return none
    | some source =>
      let reading := Template.read source
      reading.notices.forM (note host)
      match reading.outcome with
      | .error error => throw (.partialSyntax error)
      | .ok document =>
        modify fun pass => { pass with cache := (name, some document) :: pass.cache }
        note host (.partialRead name)
        return some document

/-- The walks over a section's body that a plan asks for, and whether its nodes are walked as
children besides. -/
def SectionPlan.requests (node : Node) (depth : Int) :
    SectionPlan ν → Except NumeralError (Walk.Control × List (Walk.Request (Hook ν)))
  | .absent => .ok (.skip, [])
  | .plain => .ok (.proceed, [])
  | .inScopes value =>
    (sectionScopes graph value).map fun values =>
      (.skip, values.map fun value => ⟨node.children, depth + 1, some (.scope value)⟩)

/-- Includes a partial, unless too many inclusions are in progress. -/
def requestPartial (name : String) (depth : Int) :
    EStateM (RenderError ε) (Pass ω) (List (Walk.Request (Hook ν))) := do
  if options.inclusionLimit ≤ (← get).inclusions then
    throw (.tooDeep name options.inclusionLimit)
  match ← partialDocument host name with
  | none => return []
  | some document => return [⟨document.nodes, depth + 1, some .inclusion⟩]

def visit (node : Node) (depth : Int) :
    EStateM (RenderError ε) (Pass ω) (Walk.Control × List (Walk.Request (Hook ν))) :=
  match node.label with
  | .root => pure (.proceed, [])
  | .text content _ => do
    lift (host.write content)
    return (.proceed, [])
  | .tag tag =>
    match tag.type with
    | .escaped => do
      substitute host tag.name options.escape
      return (.proceed, [])
    | .unescaped => do
      substitute host tag.name false
      return (.proceed, [])
    | .sectionBegin => do
      match (← plan host tag.name).requests graph node depth with
      | .ok requests => return requests
      | .error error => throw (.item error)
    | .invertedBegin => do
      return (if (← plan host tag.name).isAbsent then .proceed else .skip, [])
    | .inclusion => do return (.proceed, ← requestPartial options host tag.name depth)
    | .comment | .sectionEnd | .switch | .invalid => pure (.proceed, [])

def enter : Hook ν → EStateM (RenderError ε) (Pass ω) Unit
  | .scope value =>
    match host.context.scopes with
    | some scopes => lift (scopes.push value)
    | none => pure ()
  | .inclusion => modify fun pass => { pass with inclusions := pass.inclusions + 1 }

def leave : Hook ν → EStateM (RenderError ε) (Pass ω) Unit
  | .scope _ =>
    match host.context.scopes with
    | some scopes => do
      let _ ← lift scopes.pop
      return ()
    | none => pure ()
  | .inclusion => modify fun pass => { pass with inclusions := pass.inclusions - 1 }

def visitor : Walk.Visitor (Pass ω) (RenderError ε) (Hook ν) where
  visit := visit options host graph
  enter := enter host
  leave := leave host

end Stencil.Render

import Stencil.Renderer
import Stencil.UserError

/-!
# Templates

A template is a source with what came of reading it, either a document or the defect that prevented
one. Only a template with a document can be rendered or listed; asking it of another is an error
that names the defect.

`Template.renderToString` gives the text of a template over a context. `render` goes the whole way from
a source and data to the text, by the same rendering (`render_eq_ok_iff`).
-/

set_option autoImplicit false

namespace Stencil

structure Template where
  source : String
  reading : Reading

namespace Template

def ofSource (source : String) : Template := ⟨source, read source⟩

def error? (template : Template) : Option SyntaxError :=
  match template.reading.outcome with
  | .ok _ => none
  | .error error => some error

def isValid (template : Template) : Bool := template.error?.isNone

/-- The defect in words, nothing if there is none. -/
def errorMessage (template : Template) : String :=
  (template.error?.map SyntaxError.message).getD ""

/-- The document, or the error of having none. -/
def document (template : Template) : Except UserError Document :=
  match template.reading.outcome with
  | .ok document => .ok document
  | .error error => .error (.notValid (some error))

/-- The notices that reading a template gives rise to. -/
def notices (template : Template) : List Notice :=
  template.reading.notices ++ (template.error?.map Notice.unreadable).toList

end Template

/-- Why a template has no text over a context. -/
inductive TextFailure (ε : Type)
  /-- There is nothing to render. -/
  | template (error : UserError)
  | rendering (error : RenderError ε)
deriving DecidableEq, Repr

/-- The text of a template over a context, with partials from a loader. -/
def Template.renderToString {κ ε ν : Type} (template : Template) (options : RenderOptions)
    (context : Context κ ε ν) (loader : Loader ε) (graph : Graph ν) (start : κ) :
    Except (TextFailure ε) String :=
  match template.document with
  | .error error => .error (.template error)
  | .ok document =>
    let rendering :=
      ({ options := options } : Renderer).renderOver context loader graph document start
    match rendering.result with
    | .ok _ => .ok rendering.world.output
    | .error error => .error (.rendering error)

theorem Template.renderToString_eq_ok_iff {κ ε ν : Type} {template : Template}
    {options : RenderOptions} {context : Context κ ε ν} {loader : Loader ε} {graph : Graph ν} {start : κ}
    {text : String} :
    template.renderToString options context loader graph start = .ok text ↔
      ∃ document, template.document = .ok document ∧
        (({ options := options } : Renderer).renderOver context loader graph document start).result =
          .ok () ∧
        text = (({ options := options } : Renderer).renderOver context loader graph document
          start).world.output := by
  unfold Template.renderToString
  cases template.document with
  | error error => exact iff_of_false nofun fun ⟨_, h, _⟩ => nomatch h
  | ok document =>
    simp only [Except.ok.injEq, exists_eq_left']
    generalize ({ options := options } : Renderer).renderOver context loader graph document start =
      rendering
    cases rendering.result with
    | ok _ => simp only [Except.ok.injEq, true_and, eq_comm]
    | error error => exact iff_of_false nofun nofun

/-- Why a source and data could not be rendered. -/
inductive RenderFailure (ε : Type)
  | template (error : SyntaxError)
  | rendering (error : RenderError ε)
deriving DecidableEq, Repr

/-- The text of a source over some data. -/
def render {ν : Type} (options : RenderOptions) (loader : Loader ContextError) (graph : Graph ν)
    (source : String) (data : Datum ν) : Except (RenderFailure ContextError) String :=
  match Template.parse source with
  | .error error => .error (.template error)
  | .ok document =>
    match ContextStack.ofDatum graph data with
    | .error error => .error (.rendering (.host (.numeral error)))
    | .ok start =>
      let rendering :=
        ({ options := options } : Renderer).renderOver (.ofStack graph) loader graph document start
      match rendering.result with
      | .ok _ => .ok rendering.world.output
      | .error error => .error (.rendering error)

/-- The text of a source over data is that of its template over a stack with the data at the bottom. -/
theorem render_eq_ok_iff {ν : Type} {options : RenderOptions} {loader : Loader ContextError}
    {graph : Graph ν} {source : String} {data : Datum ν} {text : String} :
    render options loader graph source data = .ok text ↔
      ∃ start, ContextStack.ofDatum graph data = .ok start ∧
        (Template.ofSource source).renderToString options (.ofStack graph) loader graph start =
          .ok text := by
  have hparse : Template.parse source = (Template.ofSource source).reading.outcome := rfl
  unfold render Template.renderToString Template.document
  rw [hparse]
  cases (Template.ofSource source).reading.outcome with
  | error error => exact iff_of_false nofun fun ⟨_, _, h⟩ => nomatch h
  | ok document =>
    cases ContextStack.ofDatum graph data with
    | error error => exact iff_of_false nofun fun ⟨_, h, _⟩ => nomatch h
    | ok start =>
      simp only [Except.ok.injEq, exists_eq_left']
      generalize ({ options := options } : Renderer).renderOver (.ofStack graph) loader graph document
        start = rendering
      cases rendering.result with
      | ok _ => simp only [Except.ok.injEq]
      | error error => exact iff_of_false nofun nofun

end Stencil

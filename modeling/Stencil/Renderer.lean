import Stencil.Partials.Loader
import Stencil.Render.Halting

/-!
# Renderers

A renderer holds the options of a rendering and the partials that it has loaded so far. Rendering
changes neither the document nor, in the end, the context, but it can add to the partials: these
are asked for once, however often they are included and by however many documents.

`Stage` is the plainest world to render in. It keeps a context, what has been written, and what has
been reported.
-/

set_option autoImplicit false

namespace Stencil

variable {ω ε ν κ : Type}

structure Renderer where
  options : RenderOptions := {}
  cache : Render.Cache := []

structure Rendering (ω ε : Type) where
  result : Except (RenderError ε) Unit
  renderer : Renderer
  world : ω

namespace Renderer

/-- The rendering of a document as a walk that has not started. -/
def start (renderer : Renderer) (document : Document) (world : ω) :
    Walk.Machine (Render.Pass ω) (Render.Hook ν) :=
  Walk.Visitor.start document.nodes ⟨renderer.cache, 0, world⟩

def render (renderer : Renderer) (host : Host ω ε ν) (graph : Graph ν) (document : Document)
    (world : ω) : Rendering ω ε :=
  let outcome :=
    (Render.visitor renderer.options host graph).run (renderer.start document world)
      (Render.halts renderer.options host graph document.nodes _)
  { result := outcome.verdict.map fun _ => ()
    renderer := { renderer with cache := outcome.state.cache }
    world := outcome.state.world }

end Renderer

/-- A world with a context `κ` and a sink that keeps everything, latest first. -/
structure Stage (κ : Type) where
  context : κ
  written : List String := []
  notices : List Notice := []

namespace Stage

/-- All that has been written, as one text. -/
def output (stage : Stage κ) : String := String.join stage.written.reverse

/-- Everything happens on the stage; the partials come from a loader. -/
def host (context : Context κ ε ν) (loader : Loader ε) : Host (Stage κ) ε ν where
  context := context.zoom Stage.context (fun context stage => { stage with context := context }) id
  write text := modify fun stage => { stage with written := text :: stage.written }
  load name stage :=
    let answer := loader name
    let stage := { stage with notices := answer.1.reverse ++ stage.notices }
    match answer.2 with
    | .ok source => .ok source stage
    | .error error => .error error stage
  note notice stage := { stage with notices := notice :: stage.notices }

end Stage

namespace Renderer

/-- Renders a document over a context, with partials from a loader, to a stage of its own. -/
def renderOver (renderer : Renderer) (context : Context κ ε ν) (loader : Loader ε)
    (graph : Graph ν) (document : Document) (start : κ) : Rendering (Stage κ) ε :=
  renderer.render (Stage.host context loader) graph document { context := start }

end Renderer

end Stencil

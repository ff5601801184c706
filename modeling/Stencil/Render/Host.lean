import Stencil.Context.Basic
import Stencil.Notice
import Stencil.SyntaxError

/-!
# What surrounds a rendering

Rendering reaches outside itself in four ways: it looks names up in a context, writes to a sink,
asks a loader for partials and reports notices. A `Host` offers these as actions on one world of
type `ω`, which fail with errors of type `ε`. A rendering can end with such an error or with one of
its own.
-/

set_option autoImplicit false

namespace Stencil

structure RenderOptions where
  /-- Whether the text of plain variables is escaped for markup. -/
  escape : Bool := true
  /-- How deep partials may be nested. -/
  inclusionLimit : Int := 32
deriving DecidableEq, Repr

/-- The world as rendering can act on it. -/
structure Host (ω ε ν : Type) where
  context : Context ω ε ν
  write : String → EStateM ε ω Unit
  /-- The source of a partial, if there is such a partial. -/
  load : String → EStateM ε ω (Option String)
  note : Notice → ω → ω

/-- Whether sections can enter scopes. -/
def Host.isScoped {ω ε ν : Type} (host : Host ω ε ν) : Bool := host.context.scopes.isSome

inductive RenderError (ε : Type)
  /-- A partial that cannot be read as a template. -/
  | partialSyntax (error : SyntaxError)
  /-- A partial that is included deeper than the limit. -/
  | tooDeep (name : String) (limit : Int)
  /-- An item of a list that a section would be rendered for, but that has no value. -/
  | item (error : NumeralError)
  /-- A failure of the context, the sink or the loader. -/
  | host (error : ε)
deriving DecidableEq, Repr

/-- What is said about a partial that is included too deep. -/
def tooDeepMessage (name : String) (limit : Int) : String :=
  "partial \"" ++ name ++ "\" exceeds maximum inclusion depth " ++ toString limit

end Stencil

import Stencil.Data.Value
import Stencil.Text.Blank

/-!
# Contexts: a stack of values

A name is looked up in a stack of values, from the innermost outwards. The first part of a dotted
name picks the value to start from, and the other parts are followed from there; when one of them
leads nowhere the name is not found, even if a value further out could answer it. The name `.` is
the innermost value itself.

The outermost value, the root, is kept apart from the values pushed later, so that it cannot be
popped.
-/

set_option autoImplicit false

namespace Stencil

structure ContextStack (ν : Type) where
  root : Value ν
  /-- The values pushed so far, innermost first. -/
  pushed : List (Value ν) := []
deriving Repr

inductive ContextError
  | numeral (error : NumeralError)
  /-- Nothing but the root is left to pop. -/
  | popRoot
deriving DecidableEq, Repr

def ContextError.message : ContextError → String
  | .numeral error => error.message
  | .popRoot => "Cannot pop the root context frame"

namespace ContextStack

variable {ν ε α : Type}

/-- The stack over some data; nothing at all is the same as a mapping without entries. -/
def ofDatum (graph : Graph ν) : Datum ν → Except NumeralError (ContextStack ν)
  | .scalar .null => .ok ⟨.object (.mapping []), []⟩
  | datum => (Value.wrap graph datum).map fun root => ⟨root, []⟩

/-- All values, innermost first. -/
def frames (stack : ContextStack ν) : List (Value ν) := stack.pushed ++ [stack.root]

def top (stack : ContextStack ν) : Value ν := stack.pushed.headD stack.root

def push (value : Value ν) (stack : ContextStack ν) : ContextStack ν :=
  { stack with pushed := value :: stack.pushed }

/-- The innermost value and the stack without it, unless only the root is left. -/
def pop? (stack : ContextStack ν) : Option (Value ν × ContextStack ν) :=
  match stack.pushed with
  | [] => none
  | value :: rest => some (value, { stack with pushed := rest })

/-- The first field of this name among some values. -/
def findFirst (graph : Graph ν) (name : String) :
    List (Value ν) → Except NumeralError (Option (Value ν))
  | [] => .ok none
  | frame :: outer =>
    match frame.field graph name with
    | .ok (some value) => .ok (some value)
    | .ok none => findFirst graph name outer
    | .error error => .error error

/-- The parts of a dotted name: the first, and those after it. -/
def parts (name : String) : String × List String :=
  let split := Text.split (· == '.') name.toList
  (String.ofList split.1, split.2.map String.ofList)

def lookup (graph : Graph ν) (stack : ContextStack ν) (name : String) :
    Except NumeralError (Option (Value ν)) :=
  if name = "." then .ok (some stack.top)
  else
    match findFirst graph (parts name).1 stack.frames with
    | .ok (some value) => value.follow graph (parts name).2
    | .ok none => .ok none
    | .error error => .error error

/-- Runs a body with a value pushed, and pops once afterwards however the body ends. If there is
nothing to pop by then, that is the error that is seen. -/
def scope (embed : ContextError → ε) (value : Value ν) (body : EStateM ε (ContextStack ν) α) :
    EStateM ε (ContextStack ν) α := fun stack =>
  match body (stack.push value) with
  | .ok result after =>
    match after.pop? with
    | some (_, rest) => .ok result rest
    | none => .error (embed .popRoot) after
  | .error error after =>
    match after.pop? with
    | some (_, rest) => .error error rest
    | none => .error (embed .popRoot) after

end ContextStack

end Stencil

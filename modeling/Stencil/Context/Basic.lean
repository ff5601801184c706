import Stencil.Context.Stack

/-!
# Contexts: what rendering asks of them

All that rendering needs of a context is that it looks up names. A context that can also enter and
leave scopes gets the full treatment of sections: truth, lists and objects. Contexts act on a state
and can fail; `zoom` lets one act on a part of a larger state.

The stack of values is the standard context. `flat` is the simplest other one: a mapping that knows
its own keys and nothing else, with no scopes and no dotted names.
-/

set_option autoImplicit false

namespace Stencil

variable {σ ω ε ε' ν α : Type}

/-- Lets an action on a part of a state act on the whole. -/
def zoom (get : ω → σ) (set : σ → ω → ω) (embed : ε → ε') (action : EStateM ε σ α) :
    EStateM ε' ω α := fun whole =>
  match action (get whole) with
  | .ok result part => .ok result (set part whole)
  | .error error part => .error (embed error) (set part whole)

/-- Entering and leaving scopes. -/
structure Scopes (σ ε ν : Type) where
  push : Value ν → EStateM ε σ Unit
  pop : EStateM ε σ (Value ν)

/-- A way to resolve names, with scopes or without. -/
structure Context (σ ε ν : Type) where
  lookup : String → EStateM ε σ (Option (Value ν))
  scopes : Option (Scopes σ ε ν)

namespace Context

/-- The same context as a part of a larger state. -/
def zoom (context : Context σ ε ν) (get : ω → σ) (set : σ → ω → ω) (embed : ε → ε') :
    Context ω ε' ν where
  lookup name := Stencil.zoom get set embed (context.lookup name)
  scopes := context.scopes.map fun scopes =>
    { push := fun value => Stencil.zoom get set embed (scopes.push value)
      pop := Stencil.zoom get set embed scopes.pop }

def ofStack (graph : Graph ν) : Context (ContextStack ν) ContextError ν where
  lookup name stack :=
    match stack.lookup graph name with
    | .ok found => .ok found stack
    | .error error => .error (.numeral error) stack
  scopes := some
    { push := fun value stack => .ok () (stack.push value)
      pop := fun stack =>
        match stack.pop? with
        | some (value, rest) => .ok value rest
        | none => .error .popRoot stack }

/-- The value of a key of a mapping, if the key is exactly this text. -/
def lookupKey (graph : Graph ν) (entries : List (Literal × Datum ν)) (name : String) :
    Except NumeralError (Option (Value ν)) :=
  Value.wrapFound graph ((entries.find? (fun entry => entry.1.text? == some name)).map Prod.snd)

/-- A mapping as a context: a name is found iff it is a key. -/
def flat (graph : Graph ν) (entries : List (Literal × Datum ν)) : Context σ ContextError ν where
  lookup name state :=
    match lookupKey graph entries name with
    | .ok found => .ok found state
    | .error error => .error (.numeral error) state
  scopes := none

end Context

end Stencil

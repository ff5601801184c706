import Stencil.Proofs.Render.Action

/-!
# Where a host keeps its stack of values

The standard context is a stack of values, and a host keeps it in some part of its world. The sink
and the loader are given texts and nothing else, so whatever they do to the rest of the world, and
however they fail, that part stays as it is. `Host.Seat` says this of a host: how the stack is read
from the world and written back, and that nothing but the context changes it.

A stage is a host with a seat (`Stage.seat`). So is any other host that is put together from a stack,
a sink and a loader.
-/

set_option autoImplicit false

namespace Stencil

open Walk

variable {ω ε ν : Type}

/-! ## Parts of parts -/

section Zoom

variable {σ τ δ γ α : Type} (get : τ → σ) (set : σ → τ → τ) (embed : ε → δ) (getOuter : ω → τ)
  (setOuter : τ → ω → ω) (embedOuter : δ → γ)

theorem zoom_zoom (action : EStateM ε σ α) :
    zoom getOuter setOuter embedOuter (zoom get set embed action) =
      zoom (fun whole => get (getOuter whole))
        (fun part whole => setOuter (set part (getOuter whole)) whole)
        (fun error => embedOuter (embed error)) action := by
  funext whole
  simp only [zoom]
  cases action (get (getOuter whole)) with
  | ok result part => rfl
  | error error part => rfl

theorem Context.zoom_zoom (context : Context σ ε ν) :
    (context.zoom get set embed).zoom getOuter setOuter embedOuter =
      context.zoom (fun whole => get (getOuter whole))
        (fun part whole => setOuter (set part (getOuter whole)) whole)
        (fun error => embedOuter (embed error)) := by
  unfold Context.zoom
  simp only [Stencil.zoom_zoom, Option.map_map, Function.comp_def]

end Zoom

/-! ## Seats -/

/-- The part of a host's world that holds the stack of values which is its context. -/
structure Host.Seat (host : Host ω ε ν) (graph : Graph ν) where
  get : ω → ContextStack ν
  set : ContextStack ν → ω → ω
  embed : ContextError → ε
  context_eq : host.context = (Context.ofStack graph).zoom get set embed
  get_set : ∀ stack world, get (set stack world) = stack
  get_write : ∀ text world, get (stateOf (host.write text world)) = get world
  get_load : ∀ name world, get (stateOf (host.load name world)) = get world
  get_note : ∀ notice world, get (host.note notice world) = get world

namespace Host.Seat

variable {host : Host ω ε ν} {graph : Graph ν}

theorem get_lookup (seat : host.Seat graph) (name : String) (world : ω) :
    seat.get (stateOf (host.context.lookup name world)) = seat.get world := by
  rw [seat.context_eq]
  simp only [Context.zoom, Stencil.zoom, Context.ofStack]
  cases (seat.get world).lookup graph name with
  | ok found => exact seat.get_set _ _
  | error error => exact seat.get_set _ _

/-- Whatever is true of the stack stays true of it unless a scope is entered or left. -/
theorem preserves (seat : host.Seat graph) (property : ContextStack ν → Prop) :
    host.Preserves fun world => property (seat.get world) where
  lookup name world h := by
    rw [seat.get_lookup]
    exact h
  write text world h := by
    rw [seat.get_write]
    exact h
  load name world h := by
    rw [seat.get_load]
    exact h
  note notice world h := by
    rw [seat.get_note]
    exact h

theorem scopes_eq (seat : host.Seat graph) :
    host.context.scopes = ((Context.ofStack graph).zoom seat.get seat.set seat.embed).scopes := by
  rw [seat.context_eq]

theorem push_eq (seat : host.Seat graph) {scopes : Scopes ω ε ν}
    (hs : host.context.scopes = some scopes) (value : Value ν) (world : ω) :
    scopes.push value world = .ok () (seat.set ((seat.get world).push value) world) := by
  rw [seat.scopes_eq] at hs
  cases hs
  rfl

theorem pop_eq (seat : host.Seat graph) {scopes : Scopes ω ε ν}
    (hs : host.context.scopes = some scopes) {value : Value ν} {pushed : List (Value ν)} {world : ω}
    (hp : (seat.get world).pushed = value :: pushed) :
    scopes.pop world =
      .ok value (seat.set { seat.get world with pushed := pushed } world) := by
  rw [seat.scopes_eq] at hs
  cases hs
  simp only [Stencil.zoom, ContextStack.pop?, hp]

end Host.Seat

/-- The stack of values of a stage. -/
def Stage.seat (graph : Graph ν) (loader : Loader ContextError) :
    (Stage.host (Context.ofStack graph) loader).Seat graph where
  get := Stage.context
  set context stage := { stage with context := context }
  embed := id
  context_eq := rfl
  get_set _ _ := rfl
  get_write _ _ := rfl
  get_load name stage := by
    simp only [Stage.host]
    cases (loader name).2 <;> rfl
  get_note _ _ := rfl

end Stencil

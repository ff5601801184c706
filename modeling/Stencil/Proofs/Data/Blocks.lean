import Stencil.Context.Stack
import Stencil.Proofs.Walk.Traversal

/-!
# Scope blocks and the stack under them

Values are pushed on a stack and popped from it, one by one or in scope blocks, which push a value first
and pop once at the end. What a block pops is what is innermost by then, be it its own value or not: its
body may have popped that, and it may have left others on the stack. `Step` is all that can be done with a
stack, blocks within blocks and steps that fail included, and `Comes` says where a run of such steps comes
through, blocks inside and out.

What pushing keeps, and what those pops keep that are really made, is kept all the way
(`Comes.holds`). Two properties are kept like this. The root is, whatever the steps are, since it cannot be
popped. And so is what a block found when it was entered, with its own value on top, as long as nothing in
it pops that value; then the block takes away that value and leaves the rest as it was
(`frames_disciplined`).
-/

set_option autoImplicit false

namespace Stencil.ContextStack

open Walk

variable {ν ε α : Type}

/-! ## Frames -/

theorem frames_ne_nil (stack : ContextStack ν) : stack.frames ≠ [] := by
  simp [frames]

theorem getLast?_frames (stack : ContextStack ν) : stack.frames.getLast? = some stack.root := by
  simp [frames]

theorem length_frames (stack : ContextStack ν) : stack.frames.length = stack.pushed.length + 1 := by
  simp [frames]

/-- The root is not popped. -/
theorem pop?_eq_none_iff {stack : ContextStack ν} :
    stack.pop? = none ↔ stack.frames.length = 1 := by
  obtain ⟨root, pushed⟩ := stack
  cases pushed <;> simp [pop?, frames]

/-- What is popped is the innermost frame, and the others stay. -/
theorem frames_of_pop? {stack rest : ContextStack ν} {innermost : Value ν}
    (h : stack.pop? = some (innermost, rest)) :
    stack.frames = innermost :: rest.frames ∧ rest.root = stack.root := by
  obtain ⟨root, pushed⟩ := stack
  cases pushed with
  | nil => cases h
  | cons value pushed =>
    cases h
    exact ⟨rfl, rfl⟩

theorem exists_pop? {stack : ContextStack ν} (h : stack.frames.length ≠ 1) :
    ∃ innermost rest, stack.pop? = some (innermost, rest) ∧
      stack.frames = innermost :: rest.frames := by
  cases hp : stack.pop? with
  | none => exact absurd (pop?_eq_none_iff.1 hp) h
  | some popped => exact ⟨popped.1, popped.2, rfl, (frames_of_pop? hp).1⟩

/-- A stack made from data holds nothing but their value. Nothing at all is a mapping without entries. -/
theorem frames_of_ofDatum {graph : Graph ν} {datum : Datum ν} {stack : ContextStack ν}
    (h : ofDatum graph datum = .ok stack) :
    stack.frames = [stack.root] ∧
      (datum = .scalar .null ∧ stack.root = .object (.mapping []) ∨
        datum ≠ .scalar .null ∧ Value.wrap graph datum = .ok stack.root) := by
  unfold ofDatum at h
  split at h
  · cases h
    exact ⟨rfl, .inl ⟨rfl, rfl⟩⟩
  · next hne =>
    cases hw : Value.wrap graph datum with
    | error error =>
      rw [hw] at h
      cases h
    | ok root =>
      rw [hw] at h
      cases h
      exact ⟨rfl, .inr ⟨hne, rfl⟩⟩

section Scope

variable {embed : ContextError → ε} {value : Value ν} {body : EStateM ε (ContextStack ν) α}
  {stack : ContextStack ν}

/-- A scope block ends as its body does, with one value less. -/
theorem scope_of_some {innermost : Value ν} {rest : ContextStack ν}
    (h : (stateOf (body (stack.push value))).pop? = some (innermost, rest)) :
    scope embed value body stack = withState rest (body (stack.push value)) := by
  unfold scope
  cases hb : body (stack.push value) with
  | ok answer after =>
    rw [hb, stateOf] at h
    simp only [h, withState]
  | error error after =>
    rw [hb, stateOf] at h
    simp only [h, withState]

/-- When there is nothing to pop, that is what fails, whether the body failed or not. -/
theorem scope_of_none (h : (stateOf (body (stack.push value))).pop? = none) :
    scope embed value body stack =
      .error (embed .popRoot) (stateOf (body (stack.push value))) := by
  unfold scope
  cases hb : body (stack.push value) with
  | ok answer after =>
    rw [hb, stateOf] at h
    simp only [h, stateOf]
  | error error after =>
    rw [hb, stateOf] at h
    simp only [h, stateOf]

end Scope

/-! ## Steps -/

/-- What can be done with a stack. -/
inductive Step (ν ε : Type)
  | push (value : Value ν)
  | pop
  | lookup (name : String)
  /-- Anything else, which fails. -/
  | raise (error : ε)
  /-- Steps whose error is caught. -/
  | attempt (body : List (Step ν ε))
  /-- A block in which the value is in scope. -/
  | scope (value : Value ν) (body : List (Step ν ε))

section Running

variable (graph : Graph ν) (embed : ContextError → ε)

mutual

/-- Does one step. -/
def perform : Step ν ε → EStateM ε (ContextStack ν) Unit
  | .push value => fun stack => .ok () (stack.push value)
  | .pop => fun stack =>
    match stack.pop? with
    | some (_, rest) => .ok () rest
    | none => .error (embed .popRoot) stack
  | .lookup name => fun stack =>
    match stack.lookup graph name with
    | .ok _ => .ok () stack
    | .error error => .error (embed (.numeral error)) stack
  | .raise error => throw error
  | .attempt body => fun stack => .ok () (stateOf (performAll body stack))
  | .scope value body => scope embed value (performAll body)

/-- Does one step after the other, up to the first that fails. -/
def performAll : List (Step ν ε) → EStateM ε (ContextStack ν) Unit
  | [] => pure ()
  | step :: rest => do
    perform step
    performAll rest

end

/-- A run of the steps from a stack comes to another stack, with those steps still to be done that are left
of the innermost block. -/
inductive Comes : List (Step ν ε) → ContextStack ν → List (Step ν ε) → ContextStack ν → Prop
  | here {steps : List (Step ν ε)} {stack : ContextStack ν} : Comes steps stack steps stack
  | next {step : Step ν ε} {rest todo : List (Step ν ε)} {stack between moment : ContextStack ν}
    (hs : perform graph embed step stack = .ok () between) (hc : Comes rest between todo moment) :
    Comes (step :: rest) stack todo moment
  | attempt {body rest todo : List (Step ν ε)} {stack moment : ContextStack ν}
    (hc : Comes body stack todo moment) : Comes (.attempt body :: rest) stack todo moment
  | scope {value : Value ν} {body rest todo : List (Step ν ε)} {stack moment : ContextStack ν}
    (hc : Comes body (stack.push value) todo moment) :
    Comes (.scope value body :: rest) stack todo moment

/-- In a run of the steps from a stack something is popped from another stack, by a step or at the end of
a block. -/
inductive Pops (steps : List (Step ν ε)) (stack : ContextStack ν) : ContextStack ν → Prop
  | step {rest : List (Step ν ε)} {moment : ContextStack ν}
    (hc : Comes graph embed steps stack (.pop :: rest) moment) : Pops steps stack moment
  | leave {value : Value ν} {body rest : List (Step ν ε)} {before : ContextStack ν}
    (hc : Comes graph embed steps stack (.scope value body :: rest) before) :
    Pops steps stack (stateOf (performAll graph embed body (before.push value)))

/-- The pops in a run keep a property. -/
def PopsKeep (property : ContextStack ν → Prop) (steps : List (Step ν ε)) (stack : ContextStack ν) :
    Prop :=
  ∀ moment, Pops graph embed steps stack moment → property moment →
    ∀ innermost rest, moment.pop? = some (innermost, rest) → property rest

end Running

variable {graph : Graph ν} {embed : ContextError → ε}

theorem perform_pop_of_some {stack rest : ContextStack ν} {innermost : Value ν}
    (h : stack.pop? = some (innermost, rest)) : perform graph embed .pop stack = .ok () rest := by
  simp only [perform, h]

theorem perform_pop_of_none {stack : ContextStack ν} (h : stack.pop? = none) :
    perform graph embed .pop stack = .error (embed .popRoot) stack := by
  simp only [perform, h]

theorem stateOf_perform_lookup (name : String) (stack : ContextStack ν) :
    stateOf (perform graph embed (.lookup name) stack) = stack := by
  rw [perform]
  dsimp only
  cases stack.lookup graph name <;> rfl

/-- After a step that succeeds the others are done. -/
theorem performAll_of_ok {step : Step ν ε} {rest : List (Step ν ε)} {stack between : ContextStack ν}
    (h : perform graph embed step stack = .ok () between) :
    performAll graph embed (step :: rest) stack = performAll graph embed rest between := by
  simp only [performAll, bind, EStateM.bind, h]

/-- A step that fails is the last. -/
theorem performAll_of_error {step : Step ν ε} {rest : List (Step ν ε)} {error : ε}
    {stack after : ContextStack ν} (h : perform graph embed step stack = .error error after) :
    performAll graph embed (step :: rest) stack = .error error after := by
  simp only [performAll, bind, EStateM.bind, h]

theorem Pops.mono {steps others : List (Step ν ε)} {stack other moment : ContextStack ν}
    (h : ∀ todo moment, Comes graph embed steps stack todo moment →
      Comes graph embed others other todo moment)
    (hp : Pops graph embed steps stack moment) : Pops graph embed others other moment := by
  cases hp with
  | step hc => exact .step (h _ _ hc)
  | leave hc => exact .leave (h _ _ hc)

section Keeping

variable {property : ContextStack ν → Prop}

theorem PopsKeep.mono {steps others : List (Step ν ε)} {stack other : ContextStack ν}
    (hk : PopsKeep graph embed property others other)
    (h : ∀ todo moment, Comes graph embed steps stack todo moment →
      Comes graph embed others other todo moment) :
    PopsKeep graph embed property steps stack :=
  fun moment hp => hk moment (hp.mono h)

mutual

/-- A step keeps what pushing keeps and what the pops in it keep. -/
theorem holds_perform (hpush : ∀ stack value, property stack → property (stack.push value))
    (step : Step ν ε) (rest : List (Step ν ε)) (stack : ContextStack ν)
    (hk : PopsKeep graph embed property (step :: rest) stack) (h : property stack) :
    property (stateOf (perform graph embed step stack)) := by
  cases step with
  | push value => exact hpush stack value h
  | pop =>
    cases hp : stack.pop? with
    | none =>
      rw [perform_pop_of_none hp]
      exact h
    | some popped =>
      rw [perform_pop_of_some hp]
      exact hk stack (.step .here) h _ _ hp
  | lookup name =>
    rw [stateOf_perform_lookup]
    exact h
  | raise error => exact h
  | attempt body =>
    rw [perform]
    exact holds_performAll hpush body stack (hk.mono fun _ _ hc => .attempt hc) h
  | scope value body =>
    have hbody := holds_performAll hpush body (stack.push value) (hk.mono fun _ _ hc => .scope hc)
      (hpush stack value h)
    rw [perform]
    cases hp : (stateOf (performAll graph embed body (stack.push value))).pop? with
    | none =>
      rw [scope_of_none hp]
      exact hbody
    | some popped =>
      rw [scope_of_some hp, stateOf_withState]
      -- the pop at the end of the block is one of those in the run
      exact hk _ (.leave .here) hbody _ _ hp

theorem holds_performAll (hpush : ∀ stack value, property stack → property (stack.push value))
    (steps : List (Step ν ε)) (stack : ContextStack ν)
    (hk : PopsKeep graph embed property steps stack) (h : property stack) :
    property (stateOf (performAll graph embed steps stack)) := by
  cases steps with
  | nil => exact h
  | cons step rest =>
    have hstep := holds_perform hpush step rest stack hk h
    -- a step that fails is the last one, and the property has to hold of where it has come to
    cases hs : perform graph embed step stack with
    | error error after =>
      rw [hs] at hstep
      rw [performAll_of_error hs]
      exact hstep
    | ok answer after =>
      rw [hs] at hstep
      rw [performAll_of_ok hs]
      exact holds_performAll hpush rest after (hk.mono fun _ _ hc => .next hs hc) hstep

end

/-- **What pushing keeps and what the pops in a run keep** is true wherever the run comes to. -/
theorem Comes.holds {steps todo : List (Step ν ε)} {stack moment : ContextStack ν}
    (hc : Comes graph embed steps stack todo moment)
    (hpush : ∀ stack value, property stack → property (stack.push value))
    (hk : PopsKeep graph embed property steps stack) (h : property stack) :
    property moment ∧ property (stateOf (performAll graph embed todo moment)) := by
  induction hc with
  | @here steps stack => exact ⟨h, holds_performAll hpush steps stack hk h⟩
  | @next step rest todo stack between moment hs _ ih =>
    have hstep := holds_perform hpush step rest stack hk h
    rw [hs] at hstep
    exact ih (hk.mono fun _ _ hc => .next hs hc) hstep
  | attempt _ ih => exact ih (hk.mono fun _ _ hc => .attempt hc) h
  | scope _ ih => exact ih (hk.mono fun _ _ hc => .scope hc) (hpush _ _ h)

end Keeping

/-! ## What is kept -/

/-- The root stays where it is, whatever is done. -/
theorem popsKeep_root (root : Value ν) (steps : List (Step ν ε)) (stack : ContextStack ν) :
    PopsKeep graph embed (fun moment => moment.root = root) steps stack :=
  fun _ _ h _ _ hp => (frames_of_pop? hp).2.trans h

/-- The stack holds what the block found, its own value, and perhaps others above that. -/
def Above (before : ContextStack ν) (value : Value ν) (stack : ContextStack ν) : Prop :=
  stack.root = before.root ∧ ∃ above, stack.pushed = above ++ value :: before.pushed

theorem above_push {before : ContextStack ν} {value : Value ν} (stack : ContextStack ν)
    (other : Value ν) (h : Above before value stack) : Above before value (stack.push other) := by
  obtain ⟨hroot, above, hpushed⟩ := h
  exact ⟨hroot, other :: above, congrArg (other :: ·) hpushed⟩

/-- Unless the value of the block is popped, what it found stays below it. It is popped where a pop finds
one frame more than there were before the block. -/
theorem popsKeep_above {before stack : ContextStack ν} {value : Value ν} {body : List (Step ν ε)}
    (h : ∀ moment, Pops graph embed body stack moment →
      moment.frames.length ≠ before.frames.length + 1) :
    PopsKeep graph embed (Above before value) body stack := by
  rintro ⟨root, pushed⟩ hp ⟨hroot, above, rfl⟩ innermost rest hpop
  cases above with
  | nil => exact absurd (by simp [length_frames]) (h _ hp)
  | cons _ above =>
    cases hpop
    exact ⟨hroot, above, rfl⟩

/-- A block that ends with as many values as it began with, and never popped its own, ends with the same. -/
theorem eq_push_of_above {before stack : ContextStack ν} {value : Value ν}
    (h : Above before value stack)
    (hl : stack.frames.length = (before.push value).frames.length) : stack = before.push value := by
  obtain ⟨root, pushed⟩ := stack
  obtain ⟨hroot, above, hpushed⟩ := h
  dsimp only at hroot hpushed
  subst hroot hpushed
  have hnil : above = [] := by
    simp only [length_frames, push, List.length_append, List.length_cons] at hl
    exact List.length_eq_zero_iff.1 (by omega)
  rw [hnil]
  rfl

/-- **The root stays at the bottom, and a scope block takes away what it has put on the stack.** A stack
made from data has their value for its root. Wherever a run of steps comes to, inside of blocks, at their
ends and when a step has failed, there are frames on the stack, and the outermost is the root. To pop fails
if and only if the root is all there is, be it by a step or at the end of a block, and it leaves the stack
as it was then. And a block whose body never pops the value of the block, and ends with as many frames as
it began with, ends as its body does with exactly the stack from before. -/
theorem frames_disciplined (graph : Graph ν) (embed : ContextError → ε) (stack : ContextStack ν)
    (steps : List (Step ν ε)) :
    (∀ datum, ofDatum graph datum = .ok stack →
      stack.frames = [stack.root] ∧
        (datum = .scalar .null ∧ stack.root = .object (.mapping []) ∨
          datum ≠ .scalar .null ∧ Value.wrap graph datum = .ok stack.root)) ∧
    (∀ todo moment, Comes graph embed steps stack todo moment →
      ∀ seen ∈ [moment, stateOf (performAll graph embed todo moment)],
        seen.frames ≠ [] ∧ seen.frames.getLast? = some stack.root) ∧
    (∀ before : ContextStack ν,
      (before.frames.length = 1 →
        perform graph embed .pop before = .error (embed .popRoot) before) ∧
      (before.frames.length ≠ 1 → ∃ innermost rest, before.frames = innermost :: rest.frames ∧
        perform graph embed .pop before = .ok () rest)) ∧
    ∀ (before : ContextStack ν) (value : Value ν) (body : List (Step ν ε)),
      let block := perform graph embed (.scope value body) before
      let ended := performAll graph embed body (before.push value)
      ((stateOf ended).frames.length = 1 → block = .error (embed .popRoot) (stateOf ended)) ∧
      ((stateOf ended).frames.length ≠ 1 →
        ∃ innermost rest, (stateOf ended).frames = innermost :: rest.frames ∧
          block = withState rest ended) ∧
      ((∀ moment, Pops graph embed body (before.push value) moment →
          moment.frames.length ≠ before.frames.length + 1) →
        (stateOf ended).frames.length = (before.push value).frames.length →
        block = withState before ended) := by
  refine ⟨fun datum h => frames_of_ofDatum h, fun todo moment hc => ?_, fun before => ⟨?_, ?_⟩,
    fun before value body => ⟨?_, ?_, ?_⟩⟩
  -- the root is part of a stack, so it is kept by steps that pop as well as by those that push
  · obtain ⟨hmoment, hend⟩ := hc.holds (fun _ _ h => h) (popsKeep_root stack.root steps stack) rfl
    have hframes {seen : ContextStack ν} (h : seen.root = stack.root) :
        seen.frames ≠ [] ∧ seen.frames.getLast? = some stack.root :=
      ⟨frames_ne_nil seen, h ▸ getLast?_frames seen⟩
    exact List.forall_mem_cons.2 ⟨hframes hmoment, List.forall_mem_singleton.2 (hframes hend)⟩
  · exact fun h => perform_pop_of_none (pop?_eq_none_iff.2 h)
  · intro h
    obtain ⟨innermost, rest, hp, hframes⟩ := exists_pop? h
    exact ⟨innermost, rest, hframes, perform_pop_of_some hp⟩
  · exact fun h => scope_of_none (pop?_eq_none_iff.2 h)
  · intro h
    obtain ⟨innermost, rest, hp, hframes⟩ := exists_pop? h
    exact ⟨innermost, rest, hframes, scope_of_some hp⟩
  · -- the value of the block was never popped and is on top again, so it is what the block pops
    intro hn hl
    have habove := holds_performAll above_push body (before.push value) (popsKeep_above hn)
      ⟨rfl, [], rfl⟩
    have hend := eq_push_of_above habove hl
    have hp : (stateOf (performAll graph embed body (before.push value))).pop? =
        some (value, before) := by
      rw [hend]
      rfl
    exact scope_of_some hp

/-! ## Two blocks on a bare stack -/

def emptyMappings : Graph Unit := fun _ => .mapping []

/-- A stack with nothing on it but an empty mapping. -/
def bare : ContextStack Unit := ⟨.object (.mapping []), []⟩

/-- What pops the value of its block, so that there is nothing left for the block to pop, and fails. -/
def overdrawn : List (Step Unit ContextError) := [.pop, .raise (.numeral .tooLongToWrite)]

/-- What pops its own value only, and then fails. -/
def steady : List (Step Unit ContextError) :=
  [.push (.text "a"), .pop, .raise (.numeral .tooLongToWrite)]

theorem pops_steady {moment : ContextStack Unit}
    (h : Pops emptyMappings id steady (bare.push (.bool true)) moment) :
    moment = (bare.push (.bool true)).push (.text "a") := by
  -- the one push and the failing read after it leave one moment at which the block can pop
  cases h with
  | step hc =>
    cases hc with
    | next hs hc =>
      cases hs
      cases hc with
      | here => rfl
      | next hs hc =>
        cases hs
        cases hc with
        | next hs _ => cases hs
  | leave hc =>
    cases hc with
    | next hs hc =>
      cases hs
      cases hc with
      | next hs hc =>
        cases hs
        cases hc with
        | next hs _ => cases hs

/-- The first block fails by its own pop, and the error of its body is not seen. The second fails as its
body does. Both leave the mapping on the stack. -/
theorem frames_disciplined_bare :
    (ofDatum emptyMappings (.container ()) = .ok bare ∧ bare.frames = [bare.root]) ∧
    (Comes emptyMappings id [.scope (.bool true) overdrawn] bare overdrawn (bare.push (.bool true)) ∧
      (bare.push (.bool true)).frames.getLast? = some bare.root) ∧
    ((stateOf (performAll emptyMappings id overdrawn (bare.push (.bool true)))).frames.length = 1 ∧
      perform emptyMappings id (.scope (.bool true) overdrawn) bare = .error .popRoot bare) ∧
    (∀ moment, Pops emptyMappings id steady (bare.push (.bool true)) moment →
      moment.frames.length ≠ bare.frames.length + 1) ∧
    perform emptyMappings id (.scope (.bool true) steady) bare =
      .error (.numeral .tooLongToWrite) bare := by
  have hdata : ofDatum emptyMappings (.container ()) = .ok bare := rfl
  have hcomes : Comes emptyMappings id [.scope (.bool true) overdrawn] bare overdrawn
      (bare.push (.bool true)) := .scope .here
  have hone : (stateOf (performAll emptyMappings id overdrawn (bare.push (.bool true)))).frames.length =
      1 := rfl
  have hpops : ∀ moment, Pops emptyMappings id steady (bare.push (.bool true)) moment →
      moment.frames.length ≠ bare.frames.length + 1 := by
    intro moment h
    rw [pops_steady h]
    decide
  obtain ⟨hroot, hseen, _, hblock⟩ :=
    frames_disciplined emptyMappings id bare [.scope (.bool true) overdrawn]
  refine ⟨⟨hdata, (hroot _ hdata).1⟩, ⟨hcomes, (hseen _ _ hcomes _ List.mem_cons_self).2⟩,
    ⟨hone, (hblock bare (.bool true) overdrawn).1 hone⟩, hpops, ?_⟩
  exact (hblock bare (.bool true) steady).2.2 hpops rfl

end Stencil.ContextStack

import Mathlib.Data.List.Forall2
import Stencil.Proofs.Walk.Invariant

/-!
# Walks side by side

Two walks over the same nodes can act on different states. If whatever one visitor does from a state,
the other does from any state that goes with it, then the walks take the same steps, in the same
order, and end in the same way. So two walks are compared by comparing actions, one at a time
(`Simulates`); the stack is dealt with here, once for all.

Actions are compared by `Matches`: from states that go together they fail with the same error or
succeed with answers that go together, and either way leave states that go together. `fit` is what is
known of every node that is visited, `hooks` is which hooks go together.
-/

set_option autoImplicit false

namespace Stencil.Walk

variable {σ τ ε η κ α β γ δ : Type}

/-! ## Actions side by side -/

/-- Two actions ended alike: both succeeded, with answers that go together, or both failed, with the
same error. Either way the states go together. -/
inductive Alike (answers : α → β → Prop) (states : σ → τ → Prop) :
    EStateM.Result ε σ α → EStateM.Result ε τ β → Prop
  | ok {answer : α} {other : β} {state : σ} {beside : τ} (ha : answers answer other)
    (hs : states state beside) : Alike answers states (.ok answer state) (.ok other beside)
  | error {error : ε} {state : σ} {beside : τ} (hs : states state beside) :
    Alike answers states (.error error state) (.error error beside)

/-- Started from states that go together, the two actions end alike. -/
def Matches (answers : α → β → Prop) (states : σ → τ → Prop) (action : EStateM ε σ α)
    (other : EStateM ε τ β) : Prop :=
  ∀ state beside, states state beside → Alike answers states (action state) (other beside)

section Matches

variable {states : σ → τ → Prop} {answers : α → β → Prop} {results : γ → δ → Prop}

theorem Alike.exists_eq {result : EStateM.Result ε σ α} {other : EStateM.Result ε τ β}
    (h : Alike answers states result other) :
    (∃ answer state reply beside, result = .ok answer state ∧ other = .ok reply beside ∧
      answers answer reply ∧ states state beside) ∨
    ∃ error state beside, result = .error error state ∧ other = .error error beside ∧
      states state beside := by
  cases h with
  | ok ha hs => exact .inl ⟨_, _, _, _, rfl, rfl, ha, hs⟩
  | error hs => exact .inr ⟨_, _, _, rfl, rfl, hs⟩

theorem Alike.exists_ok {answer : α} {state : σ} {other : EStateM.Result ε τ β}
    (h : Alike answers states (.ok answer state) other) :
    ∃ reply beside, other = .ok reply beside ∧ answers answer reply ∧ states state beside := by
  cases h with
  | ok ha hs => exact ⟨_, _, rfl, ha, hs⟩

theorem Alike.exists_error {error : ε} {state : σ} {other : EStateM.Result ε τ β}
    (h : Alike answers states (.error error state) other) :
    ∃ beside, other = .error error beside ∧ states state beside := by
  cases h with
  | error hs => exact ⟨_, rfl, hs⟩

theorem Alike.stateOf {result : EStateM.Result ε σ α} {other : EStateM.Result ε τ β}
    (h : Alike answers states result other) : states (stateOf result) (stateOf other) := by
  cases h with
  | ok _ hs => exact hs
  | error hs => exact hs

theorem Alike.withState {result : EStateM.Result ε σ α} {other : EStateM.Result ε τ β}
    (h : Alike answers states result other) {state : σ} {beside : τ} (hs : states state beside) :
    Alike answers states (withState state result) (withState beside other) := by
  cases h with
  | ok ha _ => exact .ok ha hs
  | error _ => exact .error hs

theorem matches_pure {answer : α} {other : β} (h : answers answer other) :
    Matches answers states (pure answer : EStateM ε σ α) (pure other) :=
  fun _ _ hs => .ok h hs

theorem matches_throw (error : ε) :
    Matches answers states (throw error : EStateM ε σ α) (throw error : EStateM ε τ β) :=
  fun _ _ hs => .error hs

theorem Matches.mono {weaker : α → β → Prop} {action : EStateM ε σ α} {other : EStateM ε τ β}
    (h : Matches answers states action other)
    (hw : ∀ answer reply, answers answer reply → weaker answer reply) :
    Matches weaker states action other := by
  intro state beside hs
  rcases (h state beside hs).exists_eq with ⟨_, _, _, _, ha, hb, hr, hs⟩ | ⟨error, _, _, ha, hb, hs⟩
  · rw [ha, hb]
    exact .ok (hw _ _ hr) hs
  · rw [ha, hb]
    exact .error hs

theorem Matches.bind {action : EStateM ε σ α} {other : EStateM ε τ β} {next : α → EStateM ε σ γ}
    {following : β → EStateM ε τ δ} (hf : Matches answers states action other)
    (hn : ∀ answer reply, answers answer reply →
      Matches results states (next answer) (following reply)) :
    Matches results states (action >>= next) (other >>= following) := by
  intro state beside hs
  simp only [Bind.bind, EStateM.bind]
  rcases (hf state beside hs).exists_eq with
    ⟨answer, _, reply, _, ha, hb, hr, hs⟩ | ⟨error, _, _, ha, hb, hs⟩
  · rw [ha, hb]
    exact hn answer reply hr _ _ hs
  · rw [ha, hb]
    exact .error hs

end Matches

/-! ## Walks side by side -/

section Walks

variable (fit : Node → Prop) (hooks : η → κ → Prop) (states : σ → τ → Prop)

/-- Requests for the same walk, with hooks that go together. -/
structure Request.Alike (request : Request η) (other : Request κ) : Prop where
  nodes : request.nodes = other.nodes
  depth : request.depth = other.depth
  hook : Option.Rel hooks request.hook other.hook
  fit : ∀ node ∈ request.nodes, fit node

structure Frame.Alike (frame : Frame η) (other : Frame κ) : Prop where
  pending : frame.pending = other.pending
  depth : frame.depth = other.depth
  hook : Option.Rel hooks frame.hook other.hook
  entered : frame.entered = other.entered
  fit : ∀ node ∈ frame.pending, fit node

structure Machine.Alike (machine : Machine σ η) (other : Machine τ κ) : Prop where
  frames : List.Forall₂ (Frame.Alike fit hooks) machine.frames other.frames
  state : states machine.state other.state

inductive Turn.Alike : Turn σ ε η → Turn τ ε κ → Prop
  | on {next : Machine σ η} {other : Machine τ κ} (h : Machine.Alike fit hooks states next other) :
    Turn.Alike (.on next) (.on other)
  | off {verdict : Except ε Ending} {last : Machine σ η} {other : Machine τ κ}
    (h : Machine.Alike fit hooks states last other) :
    Turn.Alike (.off verdict last) (.off verdict other)

/-- The same verdict, and requests for the same walks. -/
def AnswersAlike (answer : Control × List (Request η)) (other : Control × List (Request κ)) : Prop :=
  answer.1 = other.1 ∧ List.Forall₂ (Request.Alike fit hooks) answer.2 other.2

/-- Two visitors do alike whatever a walk asks of them. -/
structure Visitor.Simulates (visitor : Visitor σ ε η) (other : Visitor τ ε κ) : Prop where
  children : ∀ {node}, fit node → ∀ child ∈ node.children, fit child
  visit : ∀ {node}, fit node → ∀ depth,
    Matches (AnswersAlike fit hooks) states (visitor.visit node depth) (other.visit node depth)
  enter : ∀ {hook beside}, hooks hook beside →
    Matches (fun _ _ => True) states (visitor.enter hook) (other.enter beside)
  leave : ∀ {hook beside}, hooks hook beside →
    Matches (fun _ _ => True) states (visitor.leave hook) (other.leave beside)

end Walks

namespace Visitor

variable {fit : Node → Prop} {hooks : η → κ → Prop} {states : σ → τ → Prop}
  {visitor : Visitor σ ε η} {other : Visitor τ ε κ}

theorem Simulates.enterHook (h : visitor.Simulates fit hooks states other) {hook : Option η}
    {beside : Option κ} (hh : Option.Rel hooks hook beside) :
    Matches (fun _ _ => True) states (visitor.enterHook hook) (other.enterHook beside) := by
  cases hh with
  | none => exact matches_pure trivial
  | some hh => exact h.enter hh

theorem Simulates.leaveHook (h : visitor.Simulates fit hooks states other) {hook : Option η}
    {beside : Option κ} (hh : Option.Rel hooks hook beside) :
    Matches (fun _ _ => True) states (visitor.leaveHook hook) (other.leaveHook beside) := by
  cases hh with
  | none => exact matches_pure trivial
  | some hh => exact h.leave hh

theorem frames_alike (control : Control) {node : Node} (depth : Int) {requests : List (Request η)}
    {others : List (Request κ)} (hc : ∀ child ∈ node.children, fit child)
    (hr : List.Forall₂ (Request.Alike fit hooks) requests others) :
    List.Forall₂ (Frame.Alike fit hooks) (control.frames node depth requests)
      (control.frames node depth others) := by
  have hrequests : List.Forall₂ (Frame.Alike fit hooks) (requests.map Request.frame)
      (others.map Request.frame) := by
    induction hr with
    | nil => exact .nil
    | cons ha _ ih => exact .cons ⟨ha.nodes, ha.depth, ha.hook, rfl, ha.fit⟩ ih
  cases control with
  | proceed => exact .cons ⟨rfl, rfl, .none, rfl, hc⟩ hrequests
  | skip => exact hrequests
  | stop => exact .nil

/-- Machines that are alike take steps that are alike. -/
theorem Simulates.step (h : visitor.Simulates fit hooks states other) {machine : Machine σ η}
    {beside : Machine τ κ} (hm : Machine.Alike fit hooks states machine beside) :
    Turn.Alike fit hooks states (visitor.step machine) (other.step beside) := by
  obtain ⟨frames, state⟩ := machine
  obtain ⟨others, coming⟩ := beside
  obtain ⟨hf, hs⟩ := hm
  -- alike stacks have alike frames on top, in the same state, so both machines do the same deed
  cases hf with
  | nil => exact .off ⟨.nil, hs⟩
  | @cons frame twin outer outers hframe houter =>
    obtain ⟨pending, depth, hook, entered⟩ := frame
    obtain ⟨_, _, _, _⟩ := twin
    obtain ⟨rfl, rfl, hhook, rfl, hfit⟩ := hframe
    cases entered with
    | false =>
      simp only [Visitor.step, Bool.false_eq_true, if_false]
      rcases (h.enterHook hhook _ _ hs).exists_eq with
        ⟨_, _, _, _, ha, hb, _, hs⟩ | ⟨error, _, _, ha, hb, hs⟩
      · rw [ha, hb]
        exact .on ⟨.cons ⟨rfl, rfl, hhook, rfl, hfit⟩ houter, hs⟩
      · rw [ha, hb]
        exact .off ⟨.cons ⟨rfl, rfl, hhook, rfl, hfit⟩ houter, hs⟩
    | true =>
      simp only [Visitor.step, if_true]
      cases pending with
      | nil =>
        rcases (h.leaveHook hhook _ _ hs).exists_eq with
          ⟨_, _, _, _, ha, hb, _, hs⟩ | ⟨error, _, _, ha, hb, hs⟩
        · simp only [ha, hb]
          exact .on ⟨houter, hs⟩
        · simp only [ha, hb]
          exact .off ⟨houter, hs⟩
      | cons node rest =>
        obtain ⟨hnode, hrest⟩ := List.forall_mem_cons.1 hfit
        have hwaiting : List.Forall₂ (Frame.Alike fit hooks) (⟨rest, depth, hook, true⟩ :: outer)
            (⟨rest, depth, _, true⟩ :: outers) :=
          .cons ⟨rfl, rfl, hhook, rfl, hrest⟩ houter
        rcases (h.visit hnode depth _ _ hs).exists_eq with
          ⟨⟨control, requests⟩, _, ⟨_, others⟩, _, ha, hb, ⟨hc, hr⟩, hs⟩ | ⟨error, _, _, ha, hb, hs⟩
        · cases hc
          have hframes := List.rel_append (frames_alike control depth (h.children hnode) hr) hwaiting
          simp only [ha, hb]
          cases control with
          | stop => exact .off ⟨hwaiting, hs⟩
          | proceed => exact .on ⟨hframes, hs⟩
          | skip => exact .on ⟨hframes, hs⟩
        · simp only [ha, hb]
          exact .off ⟨hwaiting, hs⟩

theorem Simulates.unwind (h : visitor.Simulates fit hooks states other)
    {frames : List (Frame η)} {others : List (Frame κ)}
    (hf : List.Forall₂ (Frame.Alike fit hooks) frames others) :
    Matches (fun _ _ => True) states (visitor.unwind frames) (other.unwind others) := by
  induction hf with
  | nil => exact matches_pure trivial
  | @cons frame twin outer outers hframe _ ih =>
    simp only [Visitor.unwind, hframe.entered]
    split
    · exact Matches.bind (h.leaveHook hframe.hook) fun _ _ _ => ih
    · exact ih

theorem Simulates.finish (h : visitor.Simulates fit hooks states other) (verdict : Except ε Ending)
    {machine : Machine σ η} {beside : Machine τ κ}
    (hm : Machine.Alike fit hooks states machine beside) :
    (visitor.finish verdict machine).verdict = (other.finish verdict beside).verdict ∧
      states (visitor.finish verdict machine).state (other.finish verdict beside).state := by
  unfold Visitor.finish
  rcases (h.unwind hm.frames _ _ hm.state).exists_eq with
    ⟨_, _, _, _, ha, hb, _, hs⟩ | ⟨error, _, _, ha, hb, hs⟩
  · rw [ha, hb]
    exact ⟨rfl, hs⟩
  · rw [ha, hb]
    exact ⟨rfl, hs⟩

theorem Simulates.exists_on (h : visitor.Simulates fit hooks states other)
    {machine next : Machine σ η} {beside : Machine τ κ}
    (hm : Machine.Alike fit hooks states machine beside) (turn : visitor.step machine = .on next) :
    ∃ following, other.step beside = .on following ∧
      Machine.Alike fit hooks states next following := by
  have hs := h.step hm
  rw [turn] at hs
  generalize other.step beside = reply at hs ⊢
  cases hs with
  | on hn => exact ⟨_, rfl, hn⟩

theorem Simulates.exists_off (h : visitor.Simulates fit hooks states other)
    {machine last : Machine σ η} {beside : Machine τ κ} {verdict : Except ε Ending}
    (hm : Machine.Alike fit hooks states machine beside)
    (turn : visitor.step machine = .off verdict last) :
    ∃ final, other.step beside = .off verdict final ∧ Machine.Alike fit hooks states last final := by
  have hs := h.step hm
  rw [turn] at hs
  generalize other.step beside = reply at hs ⊢
  cases hs with
  | off hl => exact ⟨_, rfl, hl⟩

/-- **Walks side by side end alike.** -/
theorem Simulates.run (h : visitor.Simulates fit hooks states other) {machine : Machine σ η}
    {beside : Machine τ κ} (hm : Machine.Alike fit hooks states machine beside)
    (halts : visitor.Halts machine) (halts' : other.Halts beside) :
    (visitor.run machine halts).verdict = (other.run beside halts').verdict ∧
      states (visitor.run machine halts).state (other.run beside halts').state := by
  induction halts generalizing beside with
  | intro machine _ ih =>
    cases turn : visitor.step machine with
    | on next =>
      obtain ⟨following, turn', hn⟩ := h.exists_on hm turn
      rw [run_of_on turn, run_of_on turn']
      exact ih next turn hn (halts'.inv turn')
    | off verdict last =>
      obtain ⟨final, turn', hl⟩ := h.exists_off hm turn
      rw [run_of_off turn, run_of_off turn']
      exact h.finish verdict hl

/-- If one of two walks side by side comes to an end, so does the other. -/
theorem Simulates.halts (h : visitor.Simulates fit hooks states other) {machine : Machine σ η}
    {beside : Machine τ κ} (hm : Machine.Alike fit hooks states machine beside)
    (halts : other.Halts beside) : visitor.Halts machine := by
  induction halts generalizing machine with
  | intro beside _ ih =>
    cases turn : visitor.step machine with
    | off verdict last => exact halts_of_off turn
    | on next =>
      obtain ⟨following, turn', hn⟩ := h.exists_on hm turn
      exact halts_of_on turn (ih following turn' hn)

theorem Simulates.of_reaches (h : visitor.Simulates fit hooks states other)
    {machine later : Machine σ η} {beside : Machine τ κ}
    (hm : Machine.Alike fit hooks states machine beside) (hr : visitor.Reaches machine later) :
    ∃ reached, other.Reaches beside reached ∧ Machine.Alike fit hooks states later reached := by
  induction hr with
  | refl => exact ⟨beside, .refl, hm⟩
  | tail _ leads ih =>
    obtain ⟨reached, hr, hmiddle⟩ := ih
    obtain ⟨following, turn, hn⟩ := h.exists_on hmiddle leads
    exact ⟨following, hr.tail turn, hn⟩

theorem start_alike {nodes : List Node} {state : σ} {beside : τ} (hf : ∀ node ∈ nodes, fit node)
    (hs : states state beside) :
    Machine.Alike fit hooks states (start nodes state) (start nodes beside) :=
  ⟨.cons ⟨rfl, rfl, .none, rfl, hf⟩ .nil, hs⟩

end Visitor

end Stencil.Walk

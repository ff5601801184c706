import Stencil.Proofs.Walk.Brackets

/-!
# Hooks that fail to be left

A hook can fail when it is left. If that happens because its walk has come to its end, the frame is off
the stack already, and what is left of the stack is taken down as after any other failure. But taking
down the stack stops at the first hook that fails, and then the hooks further out are not called at all.

So it is not true that the hook of every walk that was started is left in the end. What is true is said
with the failures disregarded (`Call.attempted`): the calls are then bracketed, but for the hooks on the
stack that the walker still holds. Each of these was entered and never called again, and there are none
unless a hook failed after the walk had ended.
-/

set_option autoImplicit false

namespace Stencil.Walk

variable {σ ε η : Type}

/-! ## Calls to leave a hook, whatever comes of them -/

/-- The call, taken for a success if it was to leave a hook. -/
def Call.attempted : Call ε η → Call ε η
  | .leave hook _ => .leave hook (.ok ())
  | .visit node depth answer => .visit node depth answer
  | .enter hook answer => .enter hook answer

/-- A hook was entered. -/
def Call.isEntry : Call ε η → Bool
  | .enter _ (.ok _) => true
  | .enter _ (.error _) | .visit _ _ _ | .leave _ _ => false

/-- A hook was called to be left. -/
def Call.isExit : Call ε η → Bool
  | .leave _ _ => true
  | .enter _ _ | .visit _ _ _ => false

theorem Bracketed.countP_eq {calls : List (Call ε η)} (h : Bracketed calls) :
    calls.countP Call.isEntry = calls.countP Call.isExit := by
  induction h with
  | nil => rfl
  | visit _ ih => simpa [Call.isEntry, Call.isExit] using ih
  | refused _ ih => simpa [Call.isEntry, Call.isExit] using ih
  | walk _ _ ihi ihr =>
    simp only [List.countP_cons, List.countP_append, Call.isEntry, Call.isExit, ihi, ihr]
    simp
    omega

/-- Of the hooks that were entered, all but the open ones were called to be left. -/
theorem Open.countP_eq {hooks : List η} {calls : List (Call ε η)} (h : Open hooks calls) :
    calls.countP Call.isEntry = calls.countP Call.isExit + hooks.length := by
  induction h with
  | closed h => exact h.countP_eq
  | within _ hi ih =>
    have hinner := hi.countP_eq
    simp only [List.countP_append, List.countP_cons, Call.isEntry, Call.isExit, ih, hinner,
      List.length_cons]
    simp
    omega

/-- The calls are bracketed iff no hook is open. -/
theorem Open.bracketed_iff {hooks : List η} {calls : List (Call ε η)} (h : Open hooks calls) :
    Bracketed calls ↔ hooks = [] := by
  constructor
  · intro hb
    have hopen := h.countP_eq
    have hclosed := hb.countP_eq
    exact List.eq_nil_of_length_eq_zero (by omega)
  · intro hnil
    subst hnil
    cases h with
    | closed hb => exact hb

/-! ## Taking down a stack -/

/-- A walk is completed when no frame is left. -/
theorem Visitor.frames_of_completed {visitor : Visitor σ ε η} {steps : Nat}
    {machine last : Machine σ η}
    (h : visitor.endFor steps machine = some (.ok .completed, last)) : last.frames = [] := by
  induction steps generalizing machine with
  | zero => cases h
  | succ steps ih =>
    rw [Visitor.endFor] at h
    cases turn : visitor.step machine with
    | on next =>
      rw [turn] at h
      exact ih h
    | off verdict final =>
      rw [turn] at h
      cases h
      obtain ⟨frames, state⟩ := machine
      cases frames with
      | nil =>
        cases turn
        rfl
      | cons frame outer =>
        -- every other way to end is an error or a stop
        simp only [Visitor.step] at turn
        repeat' split at turn
        all_goals cases turn

theorem Visitor.Keeps.release {visitor : Visitor σ ε η} {inv : List η → σ → Prop}
    (h : visitor.Keeps inv) (frames : List (Frame η)) {state : σ} (hi : inv (hooksOf frames) state) :
    inv (hooksOf (visitor.release frames state).2.frames) (visitor.release frames state).2.state := by
  -- frame by frame; where a hook cannot be left, the frame is gone and the others stay
  induction frames generalizing state with
  | nil => exact hi
  | cons frame outer ih =>
    obtain ⟨pending, depth, hook, entered⟩ := frame
    cases entered with
    | false => exact ih hi
    | true =>
      rw [hooksOf_cons_entered] at hi
      have hleave := h.leaveHook hi
      simp only [Visitor.release, if_true]
      cases hl : visitor.leaveHook hook state with
      | ok u left =>
        rw [hl] at hleave
        exact ih hleave
      | error error left =>
        rw [hl] at hleave
        exact hleave

namespace Callbacks

variable {callbacks : Callbacks σ ε η}

/-- Whether or not hooks can be left, those that were entered and not called since are on the stack. -/
theorem keeps_open (callbacks : Callbacks σ ε η) :
    callbacks.traced.visitor.Keeps fun hooks whole => Open hooks (whole.1.2.map Call.attempted) where
  visit {hooks whole} node depth hopen := by
    have hcalls := callbacks.calls_of_visit node depth whole
    cases hv : callbacks.traced.visitor.visit node depth whole with
    | ok answer after =>
      rw [hv] at hcalls
      rw [stateOf, hcalls, List.map_append]
      exact hopen.append (.visit .nil)
    | error error after =>
      rw [hv] at hcalls
      rw [stateOf, hcalls, List.map_append]
      exact hopen.append (.visit .nil)
  enter hook hopen he := by
    rw [calls_of_tracing_ok he, List.map_append]
    exact hopen.enter hook
  refuse hook hopen he := by
    rw [calls_of_tracing_error he, List.map_append]
    exact hopen.append (.refused .nil)
  -- to be called counts, so a hook that fails to be left is closed too
  leave {hooks whole} hook hopen := by
    cases hl : callbacks.traced.visitor.leave hook whole with
    | ok u left =>
      rw [stateOf, calls_of_tracing_ok hl, List.map_append]
      exact hopen.leave
    | error error left =>
      rw [stateOf, calls_of_tracing_error hl, List.map_append]
      exact hopen.leave

/-- The walker keeps the frames that were not taken down. -/
theorem settle_release (callbacks : Callbacks σ ε η) (verdict : Except ε Ending)
    (last : Machine (σ × List (Request η)) η) :
    (callbacks.settle verdict last).walker.frames =
        (callbacks.visitor.release last.frames last.state).2.frames ∧
      (callbacks.settle verdict last).state =
        (callbacks.visitor.release last.frames last.state).2.state.1 := by
  unfold settle
  match callbacks.visitor.release last.frames last.state with
  | (.ok _, _) => exact ⟨rfl, rfl⟩
  | (.error _, _) => exact ⟨rfl, rfl⟩

/-- Taking down a stack leaves no frame, or its last call is to a hook that fails. -/
theorem release_cases (frames : List (Frame η))
    (whole : (σ × List (Call ε η)) × List (Request η)) :
    (∃ left, callbacks.traced.visitor.release frames whole = (.ok (), ⟨[], left⟩)) ∨
      ∃ error rest hook leaves,
        callbacks.traced.visitor.release frames whole = (.error error, rest) ∧
        rest.state.1.2 = whole.1.2 ++ leaves ++ [.leave hook (.error error)] := by
  induction frames generalizing whole with
  | nil => exact .inl ⟨whole, rfl⟩
  | cons frame outer ih =>
    obtain ⟨pending, depth, hook, entered⟩ := frame
    cases entered with
    | false => exact ih whole
    | true =>
      cases hook with
      | none => exact ih whole
      | some hook =>
        simp only [Visitor.release, if_true]
        cases hl : callbacks.traced.visitor.leaveHook (some hook) whole with
        | error error left =>
          refine .inr ⟨error, _, hook, [], rfl, ?_⟩
          rw [List.append_nil]
          exact calls_of_tracing_error hl
        | ok u left =>
          have hcalls : left.1.2 = whole.1.2 ++ [.leave hook (.ok ())] := calls_of_tracing_ok hl
          rcases ih left with hdone | ⟨error, rest, other, leaves, hrelease, hrest⟩
          · exact .inl hdone
          · refine .inr ⟨error, rest, other, .leave hook (.ok ()) :: leaves, hrelease, ?_⟩
            rw [hrest, hcalls, List.append_assoc whole.1.2]
            rfl

/-- A walker that still holds frames when a walk is over has come to a hook that failed after the walk
had ended. -/
theorem exists_stuck {steps : Nat} {walker : Walker η} {nodes : List Node} {state : σ}
    {returned : Returned (σ × List (Call ε η)) ε η}
    (h : callbacks.traced.runFor steps walker nodes (state, []) = some returned)
    (hf : returned.walker.frames ≠ []) :
    ∃ before hook error, ¬ Quiet before ∧
      returned.state.2 = before ++ [.leave hook (.error error)] ∧ returned.verdict = .error error := by
  rw [runFor, Option.map_eq_some_iff] at h
  obtain ⟨⟨verdict, last⟩, hend, hsettle⟩ := h
  subst hsettle
  unfold settle at hf ⊢
  dsimp only at hf ⊢
  rcases release_cases last.frames last.state with
    ⟨left, hrelease⟩ | ⟨error, rest, hook, leaves, hrelease, hcalls⟩
  · rw [hrelease] at hf
    exact absurd rfl hf
  · rw [hrelease]
    refine ⟨last.state.1.2 ++ leaves, hook, error, fun hquiet => ?_, hcalls, rfl⟩
    -- the walk had ended by a call, or there would be no frames left to take down
    rcases calls_of_endFor quiet_nil hend with ⟨rfl, _⟩ | ⟨before, call, _, hcall, hlast⟩
    · have hframes := Visitor.frames_of_completed hend
      rw [hframes] at hrelease
      cases hrelease
    · have hmem : call ∈ last.state.1.2 ++ leaves := by simp [hlast]
      rw [hquiet call hmem] at hcall
      cases hcall

/-- **What becomes of hooks that fail to be left.** Whatever visits and hooks do, every hook that was
entered has been called to be left, once, after all that was entered later, except for the hooks on the
stack that the walker still holds, which have not been called. There are none of these unless a hook
failed after the walk had ended, and then that was the last call and gave the verdict. -/
theorem attempted_of_runFor {callbacks : Callbacks σ ε η} {steps : Nat} {walker : Walker η}
    {nodes : List Node} {state : σ} {returned : Returned σ ε η}
    (h : callbacks.runFor steps walker nodes state = some returned) :
    ∃ calls, callbacks.traced.runFor steps walker nodes (state, []) =
        some ⟨returned.verdict, (returned.state, calls), returned.walker⟩ ∧
      Open (hooksOf returned.walker.frames) (calls.map Call.attempted) ∧
      (Bracketed (calls.map Call.attempted) ↔ hooksOf returned.walker.frames = []) ∧
      (¬ Bracketed (calls.map Call.attempted) → ∃ before hook error, ¬ Quiet before ∧
        calls = before ++ [.leave hook (.error error)] ∧ returned.verdict = .error error) := by
  obtain ⟨calls, htraced⟩ := exists_traced h
  have hopen : Open (hooksOf returned.walker.frames) (calls.map Call.attempted) := by
    have hrun := htraced
    rw [runFor, Option.map_eq_some_iff] at hrun
    obtain ⟨⟨verdict, last⟩, hend, hsettle⟩ := hrun
    have hlast : Open (hooksOf last.frames) (last.state.1.2.map Call.attempted) := by
      refine callbacks.keeps_open.endFor ?_ hend
      exact .closed .nil
    have hrest := callbacks.keeps_open.release last.frames hlast
    obtain ⟨hframes, hstate⟩ := callbacks.traced.settle_release verdict last
    rw [hsettle] at hframes hstate
    rw [hframes]
    rwa [← congrArg Prod.snd hstate] at hrest
  refine ⟨calls, htraced, hopen, hopen.bracketed_iff, fun hb => ?_⟩
  apply exists_stuck htraced
  intro hframes
  apply hb
  rw [hopen.bracketed_iff]
  show hooksOf returned.walker.frames = []
  rw [hframes]
  rfl

/-! ## A hook that is not called -/

/-- Inside the walk of one hook they ask for that of another, which fails to be left. In there they
decide this. -/
def clumsy (last : Control) : Callbacks Unit String Nat where
  visit node _ whole :=
    match node.label with
    | .text "a" _ => .ok .skip (whole.1, whole.2 ++ [⟨[letter "b"], 0, some 1⟩])
    | .text "b" _ => .ok .skip (whole.1, whole.2 ++ [⟨[letter "c"], 0, some 2⟩])
    | _ => .ok last whole
  enter _ whole := .ok () whole
  leave hook whole := if hook = 2 then .error "stuck" whole else .ok () whole

def clumsyCalls (last : Control) : List (Call String Nat) :=
  [.visit (letter "a") 0 (.ok .skip), .enter 1 (.ok ()), .visit (letter "b") 0 (.ok .skip),
    .enter 2 (.ok ()), .visit (letter "c") 0 (.ok last), .leave 2 (.error "stuck")]

/-- If its walk comes to its end, the hook fails before anything is taken down, and the other hook is
left. -/
theorem bracketed_clumsy :
    (clumsy .skip).runFor 7 .new [letter "a"] () = some ⟨.error "stuck", (), .new⟩ ∧
      Bracketed ((clumsyCalls .skip ++ [Call.leave 1 (.ok ())]).map Call.attempted) := by
  have hrun : (clumsy .skip).runFor 7 .new [letter "a"] () = some ⟨.error "stuck", (), .new⟩ := rfl
  have htraced : (clumsy .skip).traced.runFor 7 .new [letter "a"] ((), []) =
      some ⟨.error "stuck", ((), clumsyCalls .skip ++ [.leave 1 (.ok ())]), .new⟩ := rfl
  obtain ⟨calls, hcalls, _, hiff, _⟩ := attempted_of_runFor hrun
  rw [htraced] at hcalls
  cases hcalls
  exact ⟨hrun, hiff.2 rfl⟩

/-- If the walk is stopped, the hook fails while the stack is taken down, and the other hook is never
called. -/
theorem not_bracketed_clumsy :
    (clumsy .stop).traced.runFor 6 .new [letter "a"] ((), []) =
        some ⟨.error "stuck", ((), clumsyCalls .stop),
          ⟨[⟨[], 0, some 1, true⟩, ⟨[], 0, none, true⟩], []⟩⟩ ∧
      Call.enter 1 (.ok ()) ∈ clumsyCalls .stop ∧
      (∀ answer, Call.leave 1 answer ∉ clumsyCalls .stop) ∧
      ¬ Bracketed ((clumsyCalls .stop).map Call.attempted) := by
  refine ⟨rfl, ?_, ?_, ?_⟩
  · simp [clumsyCalls]
  · intro answer
    simp [clumsyCalls]
  · intro hb
    have hcount := hb.countP_eq
    revert hcount
    decide

end Callbacks

end Stencil.Walk

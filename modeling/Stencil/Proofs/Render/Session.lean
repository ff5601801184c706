import Stencil.Proofs.Render.Calls
import Stencil.Proofs.Render.Twins

/-!
# Sessions of one renderer

A renderer is used again and again, and what the loader answers may change between one use and the
next. The renderer keeps what it has read, so a partial is not what the loader would answer now but
what it answered when that was last of use: an answer *settles* a name if there is no such partial or if
its source can be read, and the first answer that settles a name stands for the rest of the session.

A session is a list of errands, each with a document, data, a context, a sink and a loader of its own.
What has been asked of the loaders so far is the history of the session. The main theorem compares an
errand at the end of any session with the same errand for a renderer that is new, but whose loader
answers the settled names as the history does (`History.pinned`): both do the same and end alike. The
two runs go side by side and differ only in when they ask. On the way one learns when that is: a name
is asked for exactly as long as it is not settled.
-/

set_option autoImplicit false

namespace Stencil

open Walk

variable {ω ε ν : Type}

/-! ## Inquiries -/

/-- A call of a loader: the name that was asked for, and the answer, unless the loader failed. -/
structure Inquiry where
  name : String
  answer : Option (Option String)

/-- What is read from an answer of a loader. -/
def reading : Option String → Except SyntaxError (Option Document)
  | none => .ok none
  | some source => (Template.parse source).map some

/-- What the answer settles the name to be, if it does. -/
def Inquiry.settled? (inquiry : Inquiry) : Option (Option Document) :=
  inquiry.answer.bind fun answer => (reading answer).toOption

def Inquiry.settles (inquiry : Inquiry) : Bool := inquiry.settled?.isSome

/-- What has been asked so far, in order. -/
abbrev History := List Inquiry

namespace History

/-- The inquiry that settled a name: the first one for it that settles. -/
def settling? (history : History) (name : String) : Option Inquiry :=
  history.find? fun inquiry => inquiry.name == name && inquiry.settles

/-- What a name is settled to be. -/
def known? (history : History) (name : String) : Option (Option Document) :=
  (history.settling? name).bind Inquiry.settled?

/-- A loader that answers as the history does where that settles a name, and as another one where it
does not. -/
def pinned (history : History) (loader : String → Except ε (Option String)) (name : String) :
    Except ε (Option String) :=
  match (history.settling? name).bind Inquiry.answer with
  | some answer => .ok answer
  | none => loader name

/-- No name is asked for after it has been settled. -/
def AsksOnce (history : History) : Prop :=
  history.Pairwise fun earlier later => earlier.settles → later.name ≠ earlier.name

end History

/-! ## Errands and sessions -/

/-- What a renderer is asked to do: a document to render over a context and to a sink, in some world,
while the loader answers like this. -/
structure Errand (ω ε ν : Type) where
  document : Document
  graph : Graph ν
  context : Context ω ε ν
  write : String → EStateM ε ω Unit
  world : ω
  loader : String → Except ε (Option String)

namespace Errand

/-- The loader has no part in the world of the context and the sink, and neither have notices. -/
def host (errand : Errand ω ε ν) : Host ω ε ν where
  context := errand.context
  write := errand.write
  load name world :=
    match errand.loader name with
    | .ok answer => .ok answer world
    | .error error => .error error world
  note _ := id

/-- Does the errand, with all calls on record. -/
def render (errand : Errand ω ε ν) (renderer : Renderer) : Rendering (ω × List (Call ν)) ε :=
  renderer.render errand.host.recorded errand.graph errand.document (errand.world, [])

/-- The same errand with the loader pinned to a history. -/
def pinnedTo (errand : Errand ω ε ν) (history : History) : Errand ω ε ν :=
  { errand with loader := history.pinned errand.loader }

/-- The inquiries among the calls. -/
def inquiries (errand : Errand ω ε ν) (calls : List (Call ν)) : History :=
  calls.filterMap fun call =>
    match call with
    | .load name => some ⟨name, (errand.loader name).toOption⟩
    | _ => none

end Errand

/-- An errand with whatever world, errors and data. -/
structure SomeErrand where
  {World Failure Reference : Type}
  errand : Errand World Failure Reference

/-- A renderer that has been used, and what it has asked for. -/
structure Session where
  renderer : Renderer
  history : History

namespace Session

def start (options : RenderOptions) : Session := ⟨{ options := options }, []⟩

def next (session : Session) (some : SomeErrand) : Session :=
  let rendering := some.errand.render session.renderer
  ⟨rendering.renderer, session.history ++ some.errand.inquiries rendering.world.2⟩

/-- The session of a new renderer after some errands. -/
def after (options : RenderOptions) (errands : List SomeErrand) : Session :=
  errands.foldl next (start options)

end Session

/-- Whether a call is of the context or of the sink. -/
def Call.isDeed {ν : Type} : Call ν → Bool
  | .load _ => false
  | .note _ => false
  | _ => true

/-- The calls of the context and of the sink. -/
def deeds (calls : List (Call ν)) : List (Call ν) := calls.filter Call.isDeed

/-! ## What the history knows -/

namespace History

theorem settling?_append (history later : History) (name : String) :
    (history ++ later).settling? name = (history.settling? name).or (later.settling? name) :=
  List.find?_append

theorem of_settling? {history : History} {name : String} {inquiry : Inquiry}
    (h : history.settling? name = some inquiry) :
    inquiry ∈ history ∧ inquiry.name = name ∧ inquiry.settles = true := by
  have hp := List.find?_some h
  rw [Bool.and_eq_true, beq_iff_eq] at hp
  exact ⟨List.mem_of_find?_eq_some h, hp⟩

theorem known?_of_settling? {history : History} {name : String} {inquiry : Inquiry}
    (h : history.settling? name = some inquiry) : history.known? name = inquiry.settled? := by
  rw [known?, h, Option.bind_some]

theorem known?_eq_none_iff {history : History} {name : String} :
    history.known? name = none ↔ history.settling? name = none := by
  constructor
  · intro h
    cases hs : history.settling? name with
    | none => rfl
    | some inquiry =>
      rw [known?_of_settling? hs] at h
      have hsettles := (of_settling? hs).2.2
      rw [Inquiry.settles, h] at hsettles
      cases hsettles
  · intro h
    rw [known?, h, Option.bind_none]

theorem known?_append_singleton (history : History) (inquiry : Inquiry) (name : String) :
    (history ++ [inquiry]).known? name =
      (history.known? name).or (if inquiry.name = name then inquiry.settled? else none) := by
  cases hs : history.settling? name with
  | some first =>
    have happend : (history ++ [inquiry]).settling? name = some first := by
      rw [settling?_append, hs, Option.some_or]
    obtain ⟨found, hf⟩ := Option.isSome_iff_exists.1 (of_settling? hs).2.2
    rw [known?_of_settling? happend, known?_of_settling? hs, hf, Option.some_or]
  | none =>
    rw [known?_eq_none_iff.2 hs, Option.none_or, known?, settling?_append, hs, Option.none_or]
    by_cases hn : inquiry.name = name
    · cases hsettled : inquiry.settled? with
      | none => simp [settling?, Inquiry.settles, hsettled]
      | some found => simp [settling?, Inquiry.settles, hsettled, hn]
    · simp [settling?, hn]

theorem asksOnce_append_singleton {history : History} (h : history.AsksOnce) {inquiry : Inquiry}
    (hn : history.known? inquiry.name = none) : (history ++ [inquiry]).AsksOnce := by
  refine List.pairwise_append.2 ⟨h, List.pairwise_singleton _ _, fun earlier he later hl => ?_⟩
  intro hsettles heq
  rw [List.mem_singleton.1 hl] at heq
  -- an earlier inquiry that settles this name would have been found
  have hnone := List.find?_eq_none.1 (known?_eq_none_iff.1 hn) earlier he
  rw [Bool.and_eq_true, beq_iff_eq] at hnone
  exact hnone ⟨heq.symm, hsettles⟩

end History

/-! ## What the loader gives -/

/-- What a partial comes to, with this loader. -/
def obtained (loader : String → Except ε (Option String)) (name : String) :
    Except (RenderError ε) (Option Document) :=
  match loader name with
  | .error error => .error (.host error)
  | .ok answer => (reading answer).mapError .partialSyntax

theorem eq_ok_of_toOption {α δ : Type} {attempt : Except δ α} {result : α}
    (h : attempt.toOption = some result) : attempt = .ok result := by
  cases attempt with
  | ok other => rw [Option.some.inj h]
  | error error => cases h

namespace History

variable {history : History} {loader : String → Except ε (Option String)} {name : String}

theorem obtained_of_unsettled (h : history.settling? name = none) :
    obtained (history.pinned loader) name = obtained loader name := by
  simp only [obtained, pinned, h, Option.bind_none]

theorem obtained_of_settling? {inquiry : Inquiry} {found : Option Document}
    (h : history.settling? name = some inquiry) (hf : inquiry.settled? = some found) :
    obtained (history.pinned loader) name = .ok found := by
  obtain ⟨answer, ha, hr⟩ := Option.bind_eq_some_iff.1 hf
  simp only [obtained, pinned, h, Option.bind_some, ha, eq_ok_of_toOption hr]
  rfl

end History

namespace Errand

open Render

variable (errand : Errand ω ε ν)

theorem inquiries_append (calls others : List (Call ν)) :
    errand.inquiries (calls ++ others) = errand.inquiries calls ++ errand.inquiries others :=
  List.filterMap_append

theorem inquiries_notes (notices : List Notice) :
    errand.inquiries (notices.map .note) = [] := by
  induction notices with
  | nil => rfl
  | cons notice rest ih => exact ih

theorem answer_of_mem_inquiries {calls : List (Call ν)} {inquiry : Inquiry}
    (h : inquiry ∈ errand.inquiries calls) :
    inquiry = ⟨inquiry.name, (errand.loader inquiry.name).toOption⟩ := by
  obtain ⟨call, _, hc⟩ := List.mem_filterMap.1 h
  cases call with
  | load name =>
    cases hc
    rfl
  | lookup | push | pop | write | note => cases hc

theorem settled?_inquiry (name : String) :
    (⟨name, (errand.loader name).toOption⟩ : Inquiry).settled? =
      (obtained errand.loader name).toOption := by
  simp only [Inquiry.settled?, obtained]
  cases errand.loader name with
  | error error => rfl
  | ok answer =>
    show (reading answer).toOption = ((reading answer).mapError RenderError.partialSyntax).toOption
    cases reading answer <;> rfl

/-- A rendering in which a name has just been asked for, and these things were said about it. -/
def asked (name : String) (notices : List Notice) (pass : Pass (ω × List (Call ν))) :
    Pass (ω × List (Call ν)) :=
  { pass with world := (pass.world.1, pass.world.2 ++ .load name :: notices.map .note) }

/-- Asks for a partial, and keeps what it comes to. -/
def fetch (name : String) (notices : List Notice) (pass : Pass (ω × List (Call ν))) :
    EStateM.Result (RenderError ε) (Pass (ω × List (Call ν))) (Option Document) :=
  match obtained errand.loader name with
  | .ok found => .ok found { asked name notices pass with cache := (name, found) :: pass.cache }
  | .error error => .error error (asked name notices pass)

theorem fetch_of_ok {name : String} {found : Option Document}
    (h : obtained errand.loader name = .ok found)
    (notices : List Notice) (pass : Pass (ω × List (Call ν))) :
    errand.fetch name notices pass =
      .ok found { asked name notices pass with cache := (name, found) :: pass.cache } := by
  rw [fetch, h]

theorem fetch_of_error {name : String} {error : RenderError ε}
    (h : obtained errand.loader name = .error error) (notices : List Notice)
    (pass : Pass (ω × List (Call ν))) :
    errand.fetch name notices pass = .error error (asked name notices pass) := by
  rw [fetch, h]

theorem partialDocument_of_known {name : String} {pass : Pass (ω × List (Call ν))}
    {found : Option Document} (h : pass.cache.lookup name = some found) :
    partialDocument errand.host.recorded name pass = .ok found pass := by
  simp only [partialDocument, Bind.bind, EStateM.bind, get_apply, h]
  rfl

theorem notes_recorded (notices : List Notice) (pass : Pass (ω × List (Call ν))) :
    notices.forM (note errand.host.recorded) pass =
      .ok () { pass with world := (pass.world.1, pass.world.2 ++ notices.map .note) } := by
  induction notices generalizing pass with
  | nil =>
    rw [List.map_nil, List.append_nil]
    rfl
  | cons notice rest ih =>
    show (note errand.host.recorded notice >>= fun _ => rest.forM (note errand.host.recorded)) pass = _
    have hnote : note errand.host.recorded notice pass =
        .ok () { pass with world := (pass.world.1, pass.world.2 ++ [.note notice]) } := rfl
    simp only [Bind.bind, EStateM.bind, hnote, ih, List.map_cons, List.append_assoc,
      List.singleton_append]

theorem load_recorded {name : String} {answer : Option String} (h : errand.loader name = .ok answer)
    (pass : Pass (ω × List (Call ν))) :
    lift (errand.host.recorded.load name) pass =
      .ok answer { pass with world := (pass.world.1, pass.world.2 ++ [.load name]) } := by
  refine lift_of_ok ?_
  simp only [Host.recorded, recording, host, h]

theorem exists_partialDocument_eq_fetch {name : String} {pass : Pass (ω × List (Call ν))}
    (h : pass.cache.lookup name = none) :
    ∃ notices, partialDocument errand.host.recorded name pass = errand.fetch name notices pass := by
  simp only [partialDocument, Bind.bind, EStateM.bind, get_apply, h, fetch, obtained]
  cases hl : errand.loader name with
  | error error =>
    have hload : lift (errand.host.recorded.load name) pass =
        .error (.host error) { pass with world := (pass.world.1, pass.world.2 ++ [.load name]) } := by
      refine lift_of_error ?_
      simp only [Host.recorded, recording, host, hl]
    exact ⟨[], by rw [hload]; rfl⟩
  | ok answer =>
    simp only [errand.load_recorded hl]
    cases answer with
    | none =>
      refine ⟨[.partialMissing name], ?_⟩
      show EStateM.Result.ok none _ = .ok none _
      simp only [Host.recorded, host, asked, List.append_assoc, List.map_cons, List.map_nil]
      rfl
    | some source =>
      simp only [EStateM.bind, errand.notes_recorded, reading, Template.parse, List.append_assoc]
      cases (Template.read source).outcome with
      | error error => exact ⟨(Template.read source).notices, rfl⟩
      | ok document =>
        refine ⟨(Template.read source).notices ++ [.partialRead name], ?_⟩
        show EStateM.Result.ok (some document) _ = .ok (some document) _
        simp only [Host.recorded, host, asked, List.append_assoc, List.map_append, List.map_cons,
          List.map_nil, List.cons_append]
        rfl

end Errand

/-! ## A used renderer beside a new one -/

namespace Errand

open Render

/-- The errand in progress for a renderer of a session with this history, and for a new renderer with
the loader that is pinned to it. -/
structure InStep (errand : Errand ω ε ν) (history : History)
    (pass beside : Pass (ω × List (Call ν))) : Prop where
  inclusions : pass.inclusions = beside.inclusions
  world : pass.world.1 = beside.world.1
  acts : deeds pass.world.2 = deeds beside.world.2
  known : ∀ name,
    pass.cache.lookup name = (history ++ errand.inquiries pass.world.2).known? name
  once : (history ++ errand.inquiries pass.world.2).AsksOnce
  gives : ∀ name found, beside.cache.lookup name = some found →
    obtained (errand.pinnedTo history).loader name = .ok found

variable {errand : Errand ω ε ν} {history : History} {pass beside : Pass (ω × List (Call ν))}

/-- What is known of a name, from before or from this errand, is what the pinned loader gives. -/
theorem InStep.obtained_of_known (h : errand.InStep history pass beside) {name : String}
    {found : Option Document} (hk : pass.cache.lookup name = some found) :
    obtained (errand.pinnedTo history).loader name = .ok found := by
  rw [h.known name] at hk
  obtain ⟨inquiry, hs, hsettled⟩ := Option.bind_eq_some_iff.1 hk
  rw [History.settling?_append] at hs
  cases hbefore : history.settling? name with
  | some first =>
    rw [hbefore, Option.some_or] at hs
    cases hs
    exact History.obtained_of_settling? hbefore hsettled
  | none =>
    -- it has been asked for in this errand, so the loader is still the same
    rw [hbefore, Option.none_or] at hs
    obtain ⟨hmem, rfl, _⟩ := History.of_settling? hs
    rw [errand.answer_of_mem_inquiries hmem, settled?_inquiry] at hsettled
    exact (History.obtained_of_unsettled hbefore).trans (eq_ok_of_toOption hsettled)

theorem InStep.obtained_of_unknown (h : errand.InStep history pass beside) {name : String}
    (hk : pass.cache.lookup name = none) :
    obtained (errand.pinnedTo history).loader name = obtained errand.loader name := by
  rw [h.known name, History.known?_eq_none_iff, History.settling?_append, Option.or_eq_none_iff] at hk
  exact History.obtained_of_unsettled hk.1

theorem InStep.deed (h : errand.InStep history pass beside) {call : Call ν}
    (hc : call.isDeed = true) (world : ω) :
    errand.InStep history { pass with world := (world, pass.world.2 ++ [call]) }
      { beside with world := (world, beside.world.2 ++ [call]) } := by
  have hd : deeds (pass.world.2 ++ [call]) = deeds (beside.world.2 ++ [call]) := by
    simp only [deeds, List.filter_append]
    exact congrArg (· ++ _) h.acts
  have hi : errand.inquiries (pass.world.2 ++ [call]) = errand.inquiries pass.world.2 := by
    rw [inquiries_append]
    cases call with
    | load | note => cases hc
    | lookup | push | pop | write => exact List.append_nil _
  exact ⟨h.inclusions, rfl, hd, by simp only [hi]; exact h.known, by simp only [hi]; exact h.once,
    h.gives⟩

theorem deeds_asked (name : String) (notices : List Notice) (pass : Pass (ω × List (Call ν))) :
    deeds (asked name notices pass).world.2 = deeds pass.world.2 := by
  have hnotes : deeds (notices.map .note : List (Call ν)) = [] := by
    rw [deeds, List.filter_eq_nil_iff]
    intro call hc
    obtain ⟨notice, _, rfl⟩ := List.mem_map.1 hc
    exact Bool.false_ne_true
  have hload : deeds (.load name :: notices.map .note : List (Call ν)) = [] := hnotes
  rw [deeds] at hload
  rw [asked, deeds, deeds, List.filter_append, hload, List.append_nil]

theorem inquiries_asked (errand : Errand ω ε ν) (name : String) (notices : List Notice)
    (pass : Pass (ω × List (Call ν))) :
    errand.inquiries (asked name notices pass).world.2 =
      errand.inquiries pass.world.2 ++ [⟨name, (errand.loader name).toOption⟩] := by
  have hload : errand.inquiries (.load name :: notices.map .note) =
      ⟨name, (errand.loader name).toOption⟩ :: errand.inquiries (notices.map .note) := rfl
  rw [asked, inquiries_append, hload, inquiries_notes]

/-- The used renderer may ask for a name that it does not know. -/
theorem InStep.after_fetch (h : errand.InStep history pass beside) {name : String}
    (hk : pass.cache.lookup name = none) (notices : List Notice) :
    errand.InStep history (stateOf (errand.fetch name notices pass)) beside := by
  have hknown : (history ++ errand.inquiries pass.world.2).known? name = none :=
    (h.known name).symm.trans hk
  have hhistory : history ++ errand.inquiries (asked name notices pass).world.2 =
      history ++ errand.inquiries pass.world.2 ++ [⟨name, (errand.loader name).toOption⟩] := by
    rw [inquiries_asked, List.append_assoc]
  have honce : (history ++ errand.inquiries (asked name notices pass).world.2).AsksOnce := by
    rw [hhistory]
    exact History.asksOnce_append_singleton h.once hknown
  have hdeeds : deeds (asked name notices pass).world.2 = deeds beside.world.2 := by
    rw [deeds_asked]
    exact h.acts
  -- what is settled after one more inquiry is what was settled before or the name itself
  have hcache (other : String) :
      (history ++ errand.inquiries (asked name notices pass).world.2).known? other =
        (pass.cache.lookup other).or
          (if name = other then (obtained errand.loader name).toOption else none) := by
    rw [hhistory, History.known?_append_singleton, settled?_inquiry, h.known other]
  cases ho : obtained errand.loader name with
  | error error =>
    rw [fetch_of_error errand ho]
    refine ⟨h.inclusions, h.world, hdeeds, fun other => ?_, honce, h.gives⟩
    simp only [stateOf, hcache, ho, Except.toOption, ite_self, Option.or_none]
    rfl
  | ok found =>
    rw [fetch_of_ok errand ho]
    refine ⟨h.inclusions, h.world, hdeeds, fun other => ?_, honce, h.gives⟩
    simp only [stateOf, hcache, ho, Except.toOption, List.lookup_cons]
    by_cases hn : other = name
    · subst hn
      simp [hk]
    · have hb : (other == name) = false := beq_eq_false_iff_ne.2 hn
      simp [hb, Ne.symm hn]

/-- The new renderer may ask for any name. -/
theorem InStep.after_fetch_beside (h : errand.InStep history pass beside) (name : String)
    (notices : List Notice) :
    errand.InStep history pass
      (stateOf ((errand.pinnedTo history).fetch name notices beside)) := by
  have hdeeds : deeds pass.world.2 = deeds (asked name notices beside).world.2 := by
    rw [deeds_asked]
    exact h.acts
  cases ho : obtained (errand.pinnedTo history).loader name with
  | error error =>
    rw [fetch_of_error (errand.pinnedTo history) ho]
    exact ⟨h.inclusions, h.world, hdeeds, h.known, h.once, h.gives⟩
  | ok found =>
    rw [fetch_of_ok (errand.pinnedTo history) ho]
    refine ⟨h.inclusions, h.world, hdeeds, h.known, h.once, fun other reply hr => ?_⟩
    have hr : ((name, found) :: beside.cache).lookup other = some reply := hr
    rw [List.lookup_cons] at hr
    split at hr
    · next heq =>
      rw [beq_iff_eq.1 heq, ho, Option.some.inj hr]
    · exact h.gives other reply hr

theorem matches_partialDocument_pinned (errand : Errand ω ε ν) (history : History) (name : String) :
    Matches Eq (errand.InStep history) (partialDocument errand.host.recorded name)
      (partialDocument (errand.pinnedTo history).host.recorded name) := by
  intro pass beside h
  -- either side may know the name already, and neither needs the other to
  cases hl : pass.cache.lookup name with
  | some found =>
    have ho := h.obtained_of_known hl
    rw [partialDocument_of_known errand hl]
    cases hr : beside.cache.lookup name with
    | some reply =>
      rw [partialDocument_of_known (errand.pinnedTo history) hr]
      rw [h.gives name reply hr] at ho
      cases ho
      exact .ok rfl h
    | none =>
      obtain ⟨notices, hf⟩ := exists_partialDocument_eq_fetch (errand.pinnedTo history) hr
      have hasked := h.after_fetch_beside name notices
      rw [fetch_of_ok (errand.pinnedTo history) ho] at hf hasked
      rw [hf]
      exact .ok rfl hasked
  | none =>
    have ho := h.obtained_of_unknown hl
    obtain ⟨notices, hf⟩ := exists_partialDocument_eq_fetch errand hl
    have hasked := h.after_fetch hl notices
    cases hr : beside.cache.lookup name with
    | some reply =>
      rw [fetch_of_ok errand (ho.symm.trans (h.gives name reply hr))] at hf hasked
      rw [hf, partialDocument_of_known (errand.pinnedTo history) hr]
      exact .ok rfl hasked
    | none =>
      obtain ⟨others, hg⟩ := exists_partialDocument_eq_fetch (errand.pinnedTo history) hr
      have hboth := hasked.after_fetch_beside name others
      cases hb : obtained (errand.pinnedTo history).loader name with
      | ok found =>
        rw [fetch_of_ok errand (ho.symm.trans hb)] at hf hboth
        rw [fetch_of_ok (errand.pinnedTo history) hb] at hg hboth
        rw [hf, hg]
        exact .ok rfl hboth
      | error error =>
        rw [fetch_of_error errand (ho.symm.trans hb)] at hf hboth
        rw [fetch_of_error (errand.pinnedTo history) hb] at hg hboth
        rw [hf, hg]
        exact .error hboth

/-- What the context and the sink do is the same on both sides. -/
theorem matches_deed {α : Type} (errand : Errand ω ε ν) (history : History) (call : Call ν)
    (hc : call.isDeed = true) (action : EStateM ε ω α) :
    Matches Eq (errand.InStep history) (lift (recording call action))
      (lift (recording call action)) := by
  refine matches_lift fun {pass beside} h => ?_
  simp only [recording, ← h.world]
  cases action pass.world.1 with
  | ok answer world => exact .ok rfl (h.deed hc world)
  | error error world => exact .error (h.deed hc world)

theorem twins_pinned (errand : Errand ω ε ν) (history : History) :
    Twins errand.host.recorded (errand.pinnedTo history).host.recorded
      (fun _ => True) Eq (errand.InStep history) where
  inclusions h := h.inclusions
  count h _ := ⟨rfl, h.world, h.acts, h.known, h.once, h.gives⟩
  lookup tag _ := (matches_deed errand history (.lookup tag.name) rfl _).mono fun found reply h => by
    subst h
    exact optionRel_refl (fun _ => rfl) _
  write text := matches_deed errand history (.write text) rfl _
  partialDocument tag _ := (matches_partialDocument_pinned errand history tag.name).mono
    fun found reply h => ⟨h, fun document _ node _ => every_of_forall (fun _ => trivial) node⟩
  -- only the loaders differ, so lookups, writes and scopes are the same deeds on both sides
  scopes := by
    show Option.Rel _ (errand.context.scopes.map _) (errand.context.scopes.map _)
    cases errand.context.scopes with
    | none => exact .none
    | some scopes =>
      refine .some ⟨fun {value beside} hv => ?_, matches_deed errand history .pop rfl _⟩
      subst hv
      exact matches_deed errand history (.push value) rfl _

/-! ## When a name is asked for -/

theorem world_fetch (errand : Errand ω ε ν) (name : String) (notices : List Notice)
    (pass : Pass (ω × List (Call ν))) :
    (stateOf (errand.fetch name notices pass)).world = (asked name notices pass).world := by
  rw [fetch]
  cases obtained errand.loader name <;> rfl

/-- At an inclusion the loader is asked if the name has not been settled, and not otherwise. -/
theorem InStep.inquiries_visit (h : errand.InStep history pass beside) {options : RenderOptions}
    {node : Node} {tag : Tag} (hl : node.label = .tag tag) (ht : tag.type = .inclusion) (depth : Int)
    (hlimit : ¬ options.inclusionLimit ≤ pass.inclusions) :
    errand.inquiries (stateOf (visit options errand.host.recorded errand.graph node depth pass)).world.2 =
      errand.inquiries pass.world.2 ++
        if ((history ++ errand.inquiries pass.world.2).known? tag.name).isSome then []
        else [⟨tag.name, (errand.loader tag.name).toOption⟩] := by
  have hstate : stateOf (visit options errand.host.recorded errand.graph node depth pass) =
      stateOf (partialDocument errand.host.recorded tag.name pass) := by
    rw [visit_of_inclusion options errand.host.recorded errand.graph hl ht, stateOf_bind_pure,
      requestPartial_of_lt options errand.host.recorded depth hlimit, stateOf_bind_pure]
  rw [hstate, ← h.known]
  -- the cache knows just what the history has settled, so it decides whether the loader is asked
  cases hk : pass.cache.lookup tag.name with
  | some found =>
    rw [partialDocument_of_known errand hk, Option.isSome_some, if_pos rfl, List.append_nil]
    rfl
  | none =>
    obtain ⟨notices, hf⟩ := exists_partialDocument_eq_fetch errand hk
    rw [hf, world_fetch, inquiries_asked, Option.isSome_none, if_neg Bool.false_ne_true]

end Errand

/-! ## Whole sessions -/

namespace Session

/-- The renderer has these options and knows what the history has settled. -/
structure Sound (options : RenderOptions) (session : Session) : Prop where
  options : session.renderer.options = options
  known : ∀ name, session.renderer.cache.lookup name = session.history.known? name
  once : session.history.AsksOnce

variable {options : RenderOptions} {session : Session}

theorem Sound.inStep (h : session.Sound options) (errand : Errand ω ε ν) :
    errand.InStep session.history ⟨session.renderer.cache, 0, (errand.world, [])⟩
      ⟨[], 0, (errand.world, [])⟩ := by
  have hnone : session.history ++ errand.inquiries [] = session.history := List.append_nil _
  refine ⟨rfl, rfl, rfl, ?_, ?_, nofun⟩
  · rw [hnone]
    exact h.known
  · rw [hnone]
    exact h.once

/-- The errand done in the session, and the same errand pinned to the history of the session and done
for a new renderer. -/
theorem Sound.render (h : session.Sound options) (errand : Errand ω ε ν) :
    let rendering := errand.render session.renderer
    let other := (errand.pinnedTo session.history).render { options := options }
    rendering.result = other.result ∧
      errand.InStep session.history ⟨rendering.renderer.cache, 0, rendering.world⟩
        ⟨other.renderer.cache, 0, other.world⟩ := by
  have hstep := h.inStep errand
  obtain ⟨⟨_, cache⟩, history⟩ := session
  obtain ⟨rfl, _, _⟩ := h
  have hd : errand.document.Every fun _ => True :=
    fun node _ => every_of_forall (fun _ => trivial) node
  obtain ⟨hresult, hpasses⟩ := (errand.twins_pinned history).render
    (admissible_eq errand.graph Set.univ) _ hd hstep
  exact ⟨hresult, hpasses 0⟩

theorem Sound.next (h : session.Sound options) (some : SomeErrand) :
    (session.next some).Sound options := by
  have hstep := (h.render some.errand).2
  exact ⟨h.options, hstep.known, hstep.once⟩

theorem sound_after (options : RenderOptions) (errands : List SomeErrand) :
    (after options errands).Sound options := by
  have hstart : (start options).Sound options := ⟨rfl, fun _ => rfl, .nil⟩
  suffices hall : ∀ session : Session, session.Sound options →
      (errands.foldl Session.next session).Sound options from hall _ hstart
  induction errands with
  | nil => exact fun _ h => h
  | cons some rest ih => exact fun session h => ih (session.next some) (h.next some)

/-- **A session of one renderer.** After any errands, a renderer does the next one as a new renderer
does it whose loader gives the answers that have settled names before. It asks no loader for a name
that has been settled, and at an inclusion it asks for every name that has not. -/
theorem render_after (options : RenderOptions) (errands : List SomeErrand) (errand : Errand ω ε ν) :
    let session := after options errands
    let rendering := errand.render session.renderer
    let other := (errand.pinnedTo session.history).render { options := options }
    (rendering.result = other.result ∧ rendering.world.1 = other.world.1 ∧
      deeds rendering.world.2 = deeds other.world.2) ∧
    (session.history ++ errand.inquiries rendering.world.2).AsksOnce ∧
    ∀ machine,
      (Render.visitor options errand.host.recorded errand.graph).Reaches
        (session.renderer.start errand.document (errand.world, [])) machine →
      ∀ node tag depth, node.label = .tag tag → tag.type = .inclusion →
        ¬ options.inclusionLimit ≤ machine.state.inclusions →
        errand.inquiries (stateOf (Render.visit options errand.host.recorded errand.graph node depth
            machine.state)).world.2 =
          errand.inquiries machine.state.world.2 ++
            if ((session.history ++ errand.inquiries machine.state.world.2).known? tag.name).isSome
            then [] else [⟨tag.name, (errand.loader tag.name).toOption⟩] := by
  intro session rendering other
  have hsound : session.Sound options := sound_after options errands
  obtain ⟨hresult, hstep⟩ := hsound.render errand
  refine ⟨⟨hresult, hstep.world, hstep.acts⟩, hstep.once, ?_⟩
  intro machine hreaches node tag depth hl ht hlimit
  have hd : ∀ node ∈ errand.document.nodes, node.Every fun _ => True :=
    fun node _ => every_of_forall (fun _ => trivial) node
  -- at each machine of the walk the two renderers are still in step, and that is all the visit needs
  obtain ⟨_, _, halike⟩ := ((errand.twins_pinned session.history).simulates
    (admissible_eq errand.graph Set.univ) options).of_reaches
    (Visitor.start_alike hd (hsound.inStep errand)) hreaches
  exact halike.state.inquiries_visit hl ht depth hlimit

/-- The name that the sample errands are about. -/
def sampleTag : Tag := ⟨"p", .inclusion, 0⟩

/-- One inclusion, while the loader does this with any name. -/
def sampleErrand (answer : Except Unit (Option String)) : Errand (List String) Unit Unit where
  document := ⟨[⟨.tag sampleTag, []⟩], ""⟩
  graph _ := .mapping []
  context := { lookup := fun _ => pure none, scopes := none }
  write text := modify (text :: ·)
  world := []
  loader _ := answer

theorem after_sample :
    after {} [⟨sampleErrand (.error ())⟩, ⟨sampleErrand (.ok none)⟩] =
      ⟨{ cache := [("p", none)] }, [⟨"p", none⟩, ⟨"p", some none⟩]⟩ := by
  have hfailed : (sampleErrand (.error ())).render {} = _ := Renderer.render_eq_of_ends ⟨2, rfl⟩
  have hsettled : (sampleErrand (.ok none)).render {} = _ := Renderer.render_eq_of_ends ⟨6, rfl⟩
  have hfirst : (start {}).next ⟨sampleErrand (.error ())⟩ = ⟨{}, [⟨"p", none⟩]⟩ := by
    rw [next, show (sampleErrand (.error ())).render (start {}).renderer = _ from hfailed]
    rfl
  rw [after, List.foldl_cons, hfirst, List.foldl_cons, List.foldl_nil, next, hsettled]
  rfl

/-- A loader that fails does not settle the name, that there is no partial does, and what the loader
would give after that is not asked for. -/
theorem render_after_sample :
    let session := after {} [⟨sampleErrand (.error ())⟩, ⟨sampleErrand (.ok none)⟩]
    let errand := sampleErrand (.ok (some "x"))
    let rendering := errand.render session.renderer
    let pass : Render.Pass _ := ⟨session.renderer.cache, 0, (errand.world, [])⟩
    session.history = [⟨"p", none⟩, ⟨"p", some none⟩] ∧ rendering.result = .ok () ∧
      rendering.world.1 = [] ∧
      errand.inquiries (stateOf (Render.visit {} errand.host.recorded errand.graph
        ⟨.tag sampleTag, []⟩ 0 pass)).world.2 = [] := by
  intro session errand rendering pass
  have hhistory : session.history = [⟨"p", none⟩, ⟨"p", some none⟩] :=
    congrArg Session.history after_sample
  have h := render_after {} [⟨sampleErrand (.error ())⟩, ⟨sampleErrand (.ok none)⟩] errand
  have hasked := h.2.2 _ .refl ⟨.tag sampleTag, []⟩ sampleTag 0 rfl rfl (by decide)
  refine ⟨hhistory, h.1.1.trans ?_, h.1.2.1.trans ?_, hasked.trans ?_⟩
  · rw [after_sample, Errand.render, Renderer.render_eq_of_ends ⟨6, rfl⟩]
    rfl
  · rw [after_sample, Errand.render, Renderer.render_eq_of_ends ⟨6, rfl⟩]
    rfl
  · rw [show after {} _ = _ from after_sample]
    rfl

end Session

end Stencil

import Mathlib.Data.List.Forall2
import Stencil.Context.Stack

/-!
# Values that names cannot tell apart

A template reaches into data by names only, so two values are the same to it if they look the same
and every name that it knows leads from them to values that are the same to it again. A relation with
this closure is `Admissible` for a set of names. It speaks of one level of the data at a time and never
of the data as a whole, so the data may be shared, or contain itself, on one side and not on the other:
there is nothing to recurse on, and nothing here does.

An admissible relation is kept by everything that a stack of values is asked: a field, a path of
fields, the innermost field of a name, and so the lookup of a dotted name (`lookup_agree`).
-/

set_option autoImplicit false

namespace Stencil

variable {α β γ δ ε ν μ : Type}

/-- Two attempts ended alike: both failed, with the same error, or both succeeded, with results that
go together. -/
inductive Agree (related : α → β → Prop) : Except ε α → Except ε β → Prop
  | ok {result : α} {other : β} (h : related result other) : Agree related (.ok result) (.ok other)
  | error (error : ε) : Agree related (.error error) (.error error)

theorem Agree.exists_eq {related : α → β → Prop} {attempt : Except ε α} {other : Except ε β}
    (h : Agree related attempt other) :
    (∃ result beside, attempt = .ok result ∧ other = .ok beside ∧ related result beside) ∨
      ∃ error, attempt = .error error ∧ other = .error error := by
  cases h with
  | ok h => exact .inl ⟨_, _, rfl, rfl, h⟩
  | error error => exact .inr ⟨error, rfl, rfl⟩

/-- Two searches that agree both find something, both find nothing, or both fail. -/
theorem Agree.found_cases {related : α → β → Prop} {attempt : Except ε (Option α)}
    {other : Except ε (Option β)} (h : Agree (Option.Rel related) attempt other) :
    (∃ result beside, attempt = .ok (some result) ∧ other = .ok (some beside) ∧
      related result beside) ∨
    (attempt = .ok none ∧ other = .ok none) ∨
    ∃ error, attempt = .error error ∧ other = .error error := by
  cases h with
  | ok hfound =>
    cases hfound with
    | some h => exact .inl ⟨_, _, rfl, rfl, h⟩
    | none => exact .inr (.inl ⟨rfl, rfl⟩)
  | error error => exact .inr (.inr ⟨error, rfl, rfl⟩)

theorem agree_refl {related : α → α → Prop} (hr : ∀ result, related result result)
    (attempt : Except ε α) : Agree related attempt attempt := by
  cases attempt with
  | ok result => exact .ok (hr result)
  | error error => exact .error error

theorem Agree.map {related : α → β → Prop} {images : γ → δ → Prop} {f : α → γ} {g : β → δ}
    {attempt : Except ε α} {other : Except ε β} (h : Agree related attempt other)
    (hf : ∀ {result beside}, related result beside → images (f result) (g beside)) :
    Agree images (attempt.map f) (other.map g) := by
  cases h with
  | ok h => exact .ok (hf h)
  | error error => exact .error error

theorem agree_mapM {related : γ → δ → Prop} {f : α → Except ε γ} {g : β → Except ε δ}
    {items : List α} {others : List β}
    (h : List.Forall₂ (fun item other => Agree related (f item) (g other)) items others) :
    Agree (List.Forall₂ related) (items.mapM f) (others.mapM g) := by
  induction h with
  | nil => exact .ok .nil
  | @cons item other items others hitem _ ih =>
    simp only [List.mapM_cons]
    rcases hitem.exists_eq with ⟨first, beside, ha, hb, hfirst⟩ | ⟨error, ha, hb⟩
    · rcases ih.exists_eq with ⟨rest, besides, hc, hd, hrest⟩ | ⟨error, hc, hd⟩
      · rw [ha, hb, hc, hd]
        exact .ok (.cons hfirst hrest)
      · rw [ha, hb, hc, hd]
        exact .error error
    · rw [ha, hb]
      exact .error error

/-- The parts of a dotted name, all of them. -/
def ContextStack.segments (name : String) : List String :=
  (ContextStack.parts name).1 :: (ContextStack.parts name).2

/-- Related values look the same, and what the names lead to from related values is related. -/
structure Admissible (graph : Graph ν) (other : Graph μ) (names : Set String)
    (related : Value ν → Value μ → Prop) : Prop where
  kind : ∀ {value beside}, related value beside → value.kind = beside.kind
  text : ∀ {content text}, related (.text content) (.text text) → content = text
  bool : ∀ {flag truth}, related (.bool flag) (.bool truth) → flag = truth
  items : ∀ {items others}, related (.list items) (.list others) →
    List.Forall₂ (fun item beside => Agree related (Value.wrap graph item) (Value.wrap other beside))
      items others
  fields : ∀ {fields others}, related (.object fields) (.object others) → ∀ name ∈ names,
    Agree (Option.Rel related) ((Value.object fields).field graph name)
      ((Value.object others).field other name)

theorem optionRel_refl {related : α → α → Prop} (hr : ∀ result, related result result)
    (found : Option α) : Option.Rel related found found := by
  cases found with
  | none => exact .none
  | some result => exact .some (hr result)

/-- Values are no different from themselves. -/
theorem admissible_eq (graph : Graph ν) (names : Set String) : Admissible graph graph names Eq where
  kind h := congrArg Value.kind h
  text h := by cases h; rfl
  bool h := by cases h; rfl
  items h := by
    cases h
    exact List.forall₂_same.2 fun _ _ => agree_refl (fun _ => rfl) _
  fields h name _ := by
    cases h
    exact agree_refl (optionRel_refl fun _ => rfl) _

namespace Admissible

variable {graph : Graph ν} {other : Graph μ} {names : Set String}
  {related : Value ν → Value μ → Prop} {value : Value ν} {beside : Value μ}

/-- Two related values, kind by kind. -/
theorem cases (h : Admissible graph other names related) (hr : related value beside) :
    (∃ content, value = .text content ∧ beside = .text content) ∨
    (∃ flag, value = .bool flag ∧ beside = .bool flag) ∨
    (∃ items others, value = .list items ∧ beside = .list others) ∨
    ∃ fields others, value = .object fields ∧ beside = .object others := by
  have hkind := h.kind hr
  -- by the kind of the first value: the second is of the same kind, which leaves one case for each
  cases value with
  | text content =>
    cases beside with
    | text text => exact .inl ⟨content, rfl, by rw [h.text hr]⟩
    | bool | list | object => cases hkind
  | bool flag =>
    cases beside with
    | bool truth => exact .inr (.inl ⟨flag, rfl, by rw [h.bool hr]⟩)
    | text | list | object => cases hkind
  | list items =>
    cases beside with
    | list others => exact .inr (.inr (.inl ⟨items, others, rfl, rfl⟩))
    | text | bool | object => cases hkind
  | object fields =>
    cases beside with
    | object others => exact .inr (.inr (.inr ⟨fields, others, rfl, rfl⟩))
    | text | bool | list => cases hkind

theorem asText_eq (h : Admissible graph other names related) (hr : related value beside) :
    value.asText = beside.asText := by
  rcases h.cases hr with ⟨content, rfl, rfl⟩ | ⟨flag, rfl, rfl⟩ | ⟨_, _, rfl, rfl⟩ | ⟨_, _, rfl, rfl⟩
  all_goals rfl

theorem isTruthy_eq (h : Admissible graph other names related) (hr : related value beside) :
    value.isTruthy = beside.isTruthy := by
  rcases h.cases hr with
    ⟨content, rfl, rfl⟩ | ⟨flag, rfl, rfl⟩ | ⟨items, others, rfl, rfl⟩ | ⟨_, _, rfl, rfl⟩
  · rfl
  · rfl
  · have hitems := h.items hr
    cases hitems with
    | nil => rfl
    | cons => rfl
  · rfl

theorem items_agree (h : Admissible graph other names related) (hr : related value beside) :
    Agree (List.Forall₂ related) (value.items graph) (beside.items other) := by
  rcases h.cases hr with
    ⟨content, rfl, rfl⟩ | ⟨flag, rfl, rfl⟩ | ⟨items, others, rfl, rfl⟩ | ⟨_, _, rfl, rfl⟩
  · exact .ok .nil
  · exact .ok .nil
  · exact agree_mapM (h.items hr)
  · exact .ok .nil

theorem wrapFound_getElem?_agree {items : List (Datum ν)} {others : List (Datum μ)}
    (h : List.Forall₂ (fun item beside =>
      Agree related (Value.wrap graph item) (Value.wrap other beside)) items others) (index : Nat) :
    Agree (Option.Rel related) (Value.wrapFound graph items[index]?)
      (Value.wrapFound other others[index]?) := by
  induction h generalizing index with
  | nil => exact .ok .none
  | cons hitem _ ih =>
    cases index with
    | zero => exact hitem.map .some
    | succ index => exact ih index

theorem field_agree (h : Admissible graph other names related) (hr : related value beside)
    {name : String} (hn : name ∈ names) :
    Agree (Option.Rel related) (value.field graph name) (beside.field other name) := by
  rcases h.cases hr with
    ⟨content, rfl, rfl⟩ | ⟨flag, rfl, rfl⟩ | ⟨items, others, rfl, rfl⟩ | ⟨_, _, rfl, rfl⟩
  · exact .ok .none
  · exact .ok .none
  · -- positions mean the same in both lists, also those that a name fails to denote
    simp only [Value.field]
    split
    · cases readIndex name with
      | ok index => exact wrapFound_getElem?_agree (h.items hr) index
      | error error => exact .error error
    · exact .ok .none
  · exact h.fields hr name hn

theorem follow_agree (h : Admissible graph other names related) (path : List String)
    (hp : ∀ name ∈ path, name ∈ names) (hr : related value beside) :
    Agree (Option.Rel related) (value.follow graph path) (beside.follow other path) := by
  -- along the path, and over all pairs of values, since each part moves on to another pair
  induction path generalizing value beside with
  | nil => exact .ok (.some hr)
  | cons name rest ih =>
    obtain ⟨hname, hrest⟩ := List.forall_mem_cons.1 hp
    simp only [Value.follow]
    rcases (h.field_agree hr hname).found_cases with
      ⟨_, _, ha, hb, hnext⟩ | ⟨ha, hb⟩ | ⟨error, ha, hb⟩
    · rw [ha, hb]
      exact ih hrest hnext
    · rw [ha, hb]
      exact .ok .none
    · rw [ha, hb]
      exact .error error

theorem findFirst_agree (h : Admissible graph other names related) {name : String}
    (hn : name ∈ names) {frames : List (Value ν)} {others : List (Value μ)}
    (hf : List.Forall₂ related frames others) :
    Agree (Option.Rel related) (ContextStack.findFirst graph name frames)
      (ContextStack.findFirst other name others) := by
  induction hf with
  | nil => exact .ok .none
  | cons hframe _ ih =>
    simp only [ContextStack.findFirst]
    rcases (h.field_agree hframe hn).found_cases with
      ⟨_, _, ha, hb, hvalue⟩ | ⟨ha, hb⟩ | ⟨error, ha, hb⟩
    · rw [ha, hb]
      exact .ok (.some hvalue)
    · rw [ha, hb]
      exact ih
    · rw [ha, hb]
      exact .error error

end Admissible

/-- Two stacks of values that are related one by one. -/
structure ContextStack.Alike (related : Value ν → Value μ → Prop) (stack : ContextStack ν)
    (other : ContextStack μ) : Prop where
  root : related stack.root other.root
  pushed : List.Forall₂ related stack.pushed other.pushed

namespace ContextStack.Alike

variable {related : Value ν → Value μ → Prop} {stack : ContextStack ν} {other : ContextStack μ}

theorem frames (h : stack.Alike related other) : List.Forall₂ related stack.frames other.frames :=
  List.rel_append h.pushed (.cons h.root .nil)

theorem top (h : stack.Alike related other) : related stack.top other.top := by
  obtain ⟨root, pushed⟩ := stack
  obtain ⟨_, _⟩ := other
  obtain ⟨hroot, hpushed⟩ := h
  cases hpushed with
  | nil => exact hroot
  | cons hvalue _ => exact hvalue

theorem push (h : stack.Alike related other) {value : Value ν} {beside : Value μ}
    (hr : related value beside) : (stack.push value).Alike related (other.push beside) :=
  ⟨h.root, .cons hr h.pushed⟩

theorem lookup_agree {graph : Graph ν} {graph' : Graph μ} {names : Set String}
    (h : stack.Alike related other) (ha : Admissible graph graph' names related) {name : String}
    (hn : ∀ part ∈ segments name, part ∈ names) :
    Agree (Option.Rel related) (stack.lookup graph name) (other.lookup graph' name) := by
  obtain ⟨hfirst, hrest⟩ := List.forall_mem_cons.1 hn
  simp only [ContextStack.lookup]
  split
  · exact .ok (.some h.top)
  · rcases (ha.findFirst_agree hfirst h.frames).found_cases with
      ⟨_, _, hb, hc, hvalue⟩ | ⟨hb, hc⟩ | ⟨error, hb, hc⟩
    · rw [hb, hc]
      exact ha.follow_agree _ hrest hvalue
    · rw [hb, hc]
      exact .ok .none
    · rw [hb, hc]
      exact .error error

end ContextStack.Alike

end Stencil

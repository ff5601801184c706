import Mathlib.Data.List.Basic
import Stencil.Data.Value

/-!
# What has a value

A whole number of too many digits is not written, and neither is a literal that holds one
(`Literal.Unwritable`). So a datum can be without a value: such a number, or a set that has to be
written out (`Datum.Valueless`). Nothing else about data can fail when a template looks at it
(`wrap_fails_iff`).

`Graph.Written` says that data hold nothing of the kind. It is a property of each container by itself,
so it is asked of every container of a graph and then holds of every value that comes of it.
-/

set_option autoImplicit false

namespace Stencil

variable {ε ν α β γ : Type}

/-! ## Failing -/

def Fails (result : Except ε α) : Prop := ∃ error, result = .error error

theorem fails_error (error : ε) : Fails (.error error : Except ε α) := ⟨error, rfl⟩

theorem not_fails_ok (answer : α) : ¬ Fails (.ok answer : Except ε α) := nofun

theorem not_fails_iff {result : Except ε α} : ¬ Fails result ↔ ∃ answer, result = .ok answer := by
  cases result with
  | ok answer => exact iff_of_true (not_fails_ok answer) ⟨answer, rfl⟩
  | error error => exact iff_of_false (fun h => h (fails_error error)) nofun

theorem fails_map_iff {result : Except ε α} (f : α → β) : Fails (result.map f) ↔ Fails result := by
  cases result with
  | ok answer => exact iff_of_false (not_fails_ok _) (not_fails_ok _)
  | error error => exact iff_of_true (fails_error _) (fails_error _)

theorem exists_eq_of_map {result : Except ε α} {f : α → β} {reply : β}
    (h : result.map f = .ok reply) : ∃ answer, result = .ok answer ∧ reply = f answer := by
  cases result with
  | error error => cases h
  | ok answer =>
    cases h
    exact ⟨answer, rfl, rfl⟩

/-- What is put together from two answers fails if one of them cannot be had. -/
theorem fails_bind_bind_iff {first : Except ε α} {second : Except ε β} (f : α → β → γ) :
    Fails (do return f (← first) (← second)) ↔ Fails first ∨ Fails second := by
  cases first with
  | error error => exact iff_of_true (fails_error error) (.inl (fails_error error))
  | ok answer =>
    rw [or_iff_right (not_fails_ok answer)]
    exact fails_map_iff (f answer)

theorem fails_mapM_iff {f : α → Except ε β} {items : List α} :
    Fails (items.mapM f) ↔ ∃ item ∈ items, Fails (f item) := by
  induction items with
  | nil => exact iff_of_false (not_fails_ok _) nofun
  | cons item rest ih =>
    rw [List.mapM_cons, List.exists_mem_cons_iff, ← ih]
    exact fails_bind_bind_iff List.cons

/-- The answers are those of the items, each in its place. -/
theorem mapM_eq_ok_iff {f : α → Except ε β} {items : List α} {replies : List β} :
    items.mapM f = .ok replies ↔ items.map f = replies.map .ok := by
  induction items generalizing replies with
  | nil => cases replies <;> simp [pure, Except.pure]
  | cons item rest ih =>
    rw [List.mapM_cons, List.map_cons]
    cases replies with
    | nil =>
      refine iff_of_false (fun h => ?_) nofun
      cases hf : f item <;> cases hr : rest.mapM f <;>
        simp [hf, hr, bind, Except.bind, pure, Except.pure] at h
    | cons first others =>
      rw [List.map_cons, List.cons.injEq, ← ih]
      cases f item with
      | error error => simp [bind, Except.bind]
      | ok answer => cases rest.mapM f <;> simp [bind, Except.bind, pure, Except.pure]

theorem length_of_mapM {f : α → Except ε β} {items : List α} {replies : List β}
    (h : items.mapM f = .ok replies) : replies.length = items.length := by
  have hlength := congrArg List.length (mapM_eq_ok_iff.1 h)
  simpa using hlength.symm

/-- Every answer comes of one of the items. -/
theorem exists_of_mem_mapM {f : α → Except ε β} {items : List α} {replies : List β}
    (h : items.mapM f = .ok replies) : ∀ reply ∈ replies, ∃ item, f item = .ok reply := by
  intro reply hm
  have hreply : Except.ok reply ∈ items.map f := mapM_eq_ok_iff.1 h ▸ List.mem_map_of_mem hm
  obtain ⟨item, _, heq⟩ := List.mem_map.1 hreply
  exact ⟨item, heq⟩

/-! ## What cannot be written -/

/-- A whole number of more digits than are written. -/
def Scalar.IsHuge : Scalar → Prop
  | .int value => Nat.pow 10 numeralLimit ≤ value.natAbs
  | _ => False

/-- A literal that is or holds a whole number of too many digits. -/
inductive Literal.Unwritable : Literal → Prop
  | scalar {value : Scalar} (h : value.IsHuge) : Unwritable (.scalar value)
  | tuple {items : List Literal} {item : Literal} (hm : item ∈ items) (h : Unwritable item) :
    Unwritable (.tuple items)
  | list {items : List Literal} {item : Literal} (hm : item ∈ items) (h : Unwritable item) :
    Unwritable (.list items)
  | key {entries : List (Literal × Literal)} {entry : Literal × Literal} (hm : entry ∈ entries)
    (h : Unwritable entry.1) : Unwritable (.mapping entries)
  | value {entries : List (Literal × Literal)} {entry : Literal × Literal} (hm : entry ∈ entries)
    (h : Unwritable entry.2) : Unwritable (.mapping entries)

theorem writeInteger_fails_iff {value : Int} :
    Fails (writeInteger value) ↔ (Scalar.int value).IsHuge := by
  unfold writeInteger
  split
  · next h => exact iff_of_false (not_fails_ok _) (Nat.not_le.2 h)
  · next h => exact iff_of_true (fails_error _) (Nat.not_lt.1 h)

theorem Scalar.written_fails_iff (value : Scalar) : Fails value.written ↔ value.IsHuge := by
  cases value with
  | int value => exact writeInteger_fails_iff
  | bool flag => cases flag <;> exact iff_of_false (not_fails_ok _) id
  | null | float | text | foreign => exact iff_of_false (not_fails_ok _) id

theorem Scalar.quoted_fails_iff (value : Scalar) : Fails value.quoted ↔ value.IsHuge := by
  cases value with
  | text | foreign => exact iff_of_false (not_fails_ok _) id
  | null => exact Scalar.null.written_fails_iff
  | bool flag => exact (Scalar.bool flag).written_fails_iff
  | int value => exact (Scalar.int value).written_fails_iff
  | float value => exact (Scalar.float value).written_fails_iff

namespace Literal

theorem unwritable_scalar {value : Scalar} : (Literal.scalar value).Unwritable ↔ value.IsHuge := by
  constructor
  · intro h
    cases h with
    | scalar h => exact h
  · exact .scalar

theorem unwritable_tuple {items : List Literal} :
    (Literal.tuple items).Unwritable ↔ ∃ item ∈ items, item.Unwritable := by
  constructor
  · intro h
    cases h with
    | tuple hm h => exact ⟨_, hm, h⟩
  · rintro ⟨item, hm, h⟩
    exact .tuple hm h

theorem unwritable_list {items : List Literal} :
    (Literal.list items).Unwritable ↔ ∃ item ∈ items, item.Unwritable := by
  constructor
  · intro h
    cases h with
    | list hm h => exact ⟨_, hm, h⟩
  · rintro ⟨item, hm, h⟩
    exact .list hm h

theorem unwritable_mapping {entries : List (Literal × Literal)} :
    (Literal.mapping entries).Unwritable ↔
      ∃ entry ∈ entries, entry.1.Unwritable ∨ entry.2.Unwritable := by
  constructor
  · intro h
    cases h with
    | key hm h => exact ⟨_, hm, .inl h⟩
    | value hm h => exact ⟨_, hm, .inr h⟩
  · rintro ⟨entry, hm, h | h⟩
    · exact .key hm h
    · exact .value hm h

mutual

theorem quoted_fails_iff (literal : Literal) : Fails literal.quoted ↔ literal.Unwritable := by
  cases literal with
  | scalar value =>
    rw [quoted, unwritable_scalar]
    exact value.quoted_fails_iff
  | tuple items =>
    rw [quoted, unwritable_tuple, ← quotedAll_fails_iff items]
    exact fails_map_iff tupleText
  | list items =>
    rw [quoted, unwritable_list, ← quotedAll_fails_iff items]
    exact fails_map_iff (bracket "[" "]")
  | mapping entries =>
    rw [quoted, unwritable_mapping, ← quotedEntries_fails_iff entries]
    exact fails_map_iff (bracket "\x7b" "\x7d")

theorem quotedAll_fails_iff (items : List Literal) :
    Fails (quotedAll items) ↔ ∃ item ∈ items, item.Unwritable := by
  cases items with
  | nil => exact iff_of_false (not_fails_ok _) nofun
  | cons item rest =>
    rw [quotedAll, List.exists_mem_cons_iff, ← quoted_fails_iff item, ← quotedAll_fails_iff rest]
    exact fails_bind_bind_iff List.cons

theorem quotedEntries_fails_iff (entries : List (Literal × Literal)) :
    Fails (quotedEntries entries) ↔
      ∃ entry ∈ entries, entry.1.Unwritable ∨ entry.2.Unwritable := by
  cases entries with
  | nil => exact iff_of_false (not_fails_ok _) nofun
  | cons entry rest =>
    obtain ⟨key, value⟩ := entry
    rw [quotedEntries, List.exists_mem_cons_iff, ← quoted_fails_iff key, ← quoted_fails_iff value,
      ← quotedEntries_fails_iff rest]
    cases key.quoted with
    | error error => exact iff_of_true (fails_error error) (.inl (.inl (fails_error error)))
    | ok written =>
      cases value.quoted with
      | error error => exact iff_of_true (fails_error error) (.inl (.inr (fails_error error)))
      | ok text =>
        rw [or_iff_right (not_or.2 ⟨not_fails_ok written, not_fails_ok text⟩)]
        exact fails_map_iff (List.cons (written ++ ": " ++ text))

end

theorem written_fails_iff (literal : Literal) : Fails literal.written ↔ literal.Unwritable := by
  cases literal with
  | scalar value =>
    rw [unwritable_scalar]
    exact value.written_fails_iff
  | tuple items => exact quoted_fails_iff (.tuple items)
  | list items => exact quoted_fails_iff (.list items)
  | mapping entries => exact quoted_fails_iff (.mapping entries)

end Literal

/-! ## What has no value -/

/-- A number that is not written, or a set with such a number in it, whose text is all that a template
sees of it. -/
inductive Datum.Valueless (graph : Graph ν) : Datum ν → Prop
  | scalar {value : Scalar} (h : value.IsHuge) : Valueless graph (.scalar value)
  | set {reference : ν} {members : List Literal} {member : Literal}
    (hc : graph reference = .set members) (hm : member ∈ members) (h : member.Unwritable) :
    Valueless graph (.container reference)

theorem ofScalar_fails_iff (value : Scalar) :
    Fails (Value.ofScalar value : Except NumeralError (Value ν)) ↔ value.IsHuge := by
  cases value with
  | null | bool => exact iff_of_false (not_fails_ok _) id
  | int | float | text | foreign =>
    simp only [Value.ofScalar, fails_map_iff]
    exact Scalar.written_fails_iff _

theorem wrap_fails_iff {graph : Graph ν} {datum : Datum ν} :
    Fails (Value.wrap graph datum) ↔ datum.Valueless graph := by
  cases datum with
  | scalar value =>
    rw [Value.wrap, ofScalar_fails_iff]
    constructor
    · exact .scalar
    · intro h
      cases h with
      | scalar h => exact h
  | container reference =>
    rw [Value.wrap]
    -- of containers only a set is written when it is looked at, so only a set can be without a value
    have hvalueless : (Datum.container reference).Valueless graph ↔
        ∃ members, graph reference = .set members ∧ ∃ member ∈ members, member.Unwritable := by
      constructor
      · intro h
        cases h with
        | set hc hm h => exact ⟨_, hc, _, hm, h⟩
      · rintro ⟨members, hc, member, hm, h⟩
        exact .set hc hm h
    rw [hvalueless]
    cases graph reference with
    | list items => exact iff_of_false (not_fails_ok _) nofun
    | mapping entries ordered => exact iff_of_false (not_fails_ok _) nofun
    | record attributes written =>
      refine iff_of_false ?_ nofun
      rw [Value.ofCell]
      split
      · exact not_fails_ok _
      · exact not_fails_ok _
    | set members =>
      refine (fails_map_iff _).trans ((Literal.quotedAll_fails_iff members).trans ?_)
      constructor
      · exact fun h => ⟨members, rfl, h⟩
      · rintro ⟨_, heq, h⟩
        cases heq
        exact h

theorem wrapFound_fails_iff {graph : Graph ν} {found : Option (Datum ν)} :
    Fails (Value.wrapFound graph found) ↔ ∃ datum, found = some datum ∧ datum.Valueless graph := by
  cases found with
  | none => exact iff_of_false (not_fails_ok _) nofun
  | some datum =>
    refine (fails_map_iff _).trans (wrap_fails_iff.trans ?_)
    constructor
    · exact fun h => ⟨datum, rfl, h⟩
    · rintro ⟨_, heq, h⟩
      cases heq
      exact h

theorem items_fails_iff {graph : Graph ν} {items : List (Datum ν)} :
    Fails ((Value.list items).items graph) ↔ ∃ item ∈ items, item.Valueless graph := by
  simp only [Value.items, fails_mapM_iff, wrap_fails_iff]

/-! ## Data in which everything can be written -/

/-- What is in the container has values, and the keys can be written. -/
def Cell.Written (graph : Graph ν) : Cell ν → Prop
  | .list items => ∀ item ∈ items, ¬ item.Valueless graph
  | .mapping entries _ => ∀ entry ∈ entries, ¬ entry.1.Unwritable ∧ ¬ entry.2.Valueless graph
  | .set _ => True
  | .record attributes _ => ∀ named ∈ attributes, ¬ named.2.Valueless graph

def Graph.Written (graph : Graph ν) : Prop := ∀ reference, (graph reference).Written graph

/-- The same of what a value was made from. -/
def Value.Written (graph : Graph ν) : Value ν → Prop
  | .text _ => True
  | .bool _ => True
  | .list items => ∀ item ∈ items, ¬ item.Valueless graph
  | .object (.mapping entries) =>
    ∀ entry ∈ entries, ¬ entry.1.Unwritable ∧ ¬ entry.2.Valueless graph
  | .object (.record attributes) => ∀ named ∈ attributes, ¬ named.2.Valueless graph

theorem written_of_ofCell {graph : Graph ν} {cell : Cell ν} (hc : cell.Written graph)
    {value : Value ν} (h : Value.ofCell cell = .ok value) : value.Written graph := by
  cases cell with
  | list items =>
    cases h
    exact hc
  | mapping entries ordered =>
    cases h
    exact hc
  | set members =>
    rw [Value.ofCell] at h
    obtain ⟨texts, _, rfl⟩ := exists_eq_of_map h
    trivial
  | record attributes written =>
    rw [Value.ofCell] at h
    split at h
    · cases h
      exact hc
    · cases h
      trivial

theorem written_of_wrap {graph : Graph ν} (hg : graph.Written) {datum : Datum ν} {value : Value ν}
    (h : Value.wrap graph datum = .ok value) : value.Written graph := by
  cases datum with
  | container reference => exact written_of_ofCell (hg reference) h
  | scalar scalar =>
    cases scalar with
    | null | bool =>
      cases h
      trivial
    | int | float | text | foreign =>
      simp only [Value.wrap, Value.ofScalar] at h
      obtain ⟨text, _, rfl⟩ := exists_eq_of_map h
      trivial

theorem written_of_items {graph : Graph ν} (hg : graph.Written) {value : Value ν}
    {items : List (Value ν)} (h : value.items graph = .ok items) :
    ∀ item ∈ items, item.Written graph := by
  cases value with
  | text | bool | object =>
    cases h
    exact nofun
  | list data =>
    intro item hm
    obtain ⟨datum, hw⟩ := exists_of_mem_mapM h item hm
    exact written_of_wrap hg hw

end Stencil

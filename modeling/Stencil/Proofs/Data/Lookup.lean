import Mathlib.Data.List.TakeWhile
import Stencil.Proofs.Data.Alike
import Stencil.Proofs.Data.Written

/-!
# Lookups that fail

A name that leads nowhere is not found, and that is no failure. There are three ways to fail all the
same. A list that is asked for a position by digits that make no numeral cannot answer, even though the
list only had to say that it has no such item (`lookup_superscript`). A field or an item can be there
and have no value, because a number in it is too long to be written. And a key that cannot be written
cannot be compared with a name.

`Value.Refuses` says this of the data, for one value that is asked for one part of a name, and
`ContextStack.Asks` says which values a lookup asks. A lookup fails iff one of these refuses
(`lookup_fails_iff`). Where every number can be written and every position is a numeral, none does
(`exists_lookup_eq_ok`).
-/

set_option autoImplicit false

namespace Stencil

variable {ν : Type}

/-! ## Numerals -/

/-- Decimal digits, and no more of them than are read as one number. -/
def IsNumeral (name : String) : Prop :=
  (∀ c ∈ name.toList, Text.isDecimal c = true) ∧ name.length ≤ numeralLimit

instance (name : String) : Decidable (IsNumeral name) :=
  @instDecidableAnd _ _ (List.decidableBAll _ name.toList) inferInstance

theorem readIndex_of_isNumeral {name : String} (h : IsNumeral name) :
    readIndex name = .ok (Text.decimalNumber name.toList) := by
  have hall : name.toList.takeWhile Text.isDecimal = name.toList := by
    rw [List.takeWhile_eq_self_iff]
    exact h.1
  simp only [readIndex, hall, String.length_toList, if_neg (Nat.not_lt.2 h.2), Nat.lt_irrefl, if_false]

theorem readIndex_fails_iff {name : String} : Fails (readIndex name) ↔ ¬ IsNumeral name := by
  constructor
  · intro hf h
    rw [readIndex_of_isNumeral h] at hf
    exact not_fails_ok _ hf
  · intro h
    by_contra hf
    obtain ⟨index, hr⟩ := not_fails_iff.1 hf
    simp only [readIndex] at hr
    split at hr
    · cases hr
    · next hlimit =>
      split at hr
      · cases hr
      · next hlength =>
        -- the run of decimal digits is as long as the name, so it is the name
        rw [← String.length_toList] at hlength
        have hall : name.toList.takeWhile Text.isDecimal = name.toList :=
          (List.takeWhile_prefix _).eq_of_length_le (Nat.not_lt.1 hlength)
        rw [hall, String.length_toList] at hlimit
        exact h ⟨List.takeWhile_eq_self_iff.1 hall, Nat.not_lt.1 hlimit⟩

/-! ## Fields -/

/-- A key that is compared with the name and cannot be written: it is no text, and no entry before it
answers to the name. -/
def Unreadable (name : String) (entries : List (Literal × Datum ν)) : Prop :=
  ∃ before key value after, entries = before ++ (key, value) :: after ∧
    (∀ entry ∈ before, entry.1.text? = none → entry.1.written ≠ .ok name) ∧
    key.text? = none ∧ key.Unwritable

theorem unreadable_cons {name : String} {key : Literal} {value : Datum ν}
    {rest : List (Literal × Datum ν)} :
    Unreadable name ((key, value) :: rest) ↔
      (key.text? = none ∧ key.Unwritable) ∨
        ((key.text? = none → key.written ≠ .ok name) ∧ Unreadable name rest) := by
  constructor
  · rintro ⟨before, bad, found, after, heq, hb, ht, hu⟩
    cases before with
    | nil =>
      cases heq
      exact .inl ⟨ht, hu⟩
    | cons entry before =>
      cases heq
      obtain ⟨hentry, hbefore⟩ := List.forall_mem_cons.1 hb
      exact .inr ⟨hentry, before, bad, found, after, rfl, hbefore, ht, hu⟩
  · rintro (⟨ht, hu⟩ | ⟨hentry, before, bad, found, after, rfl, hb, ht, hu⟩)
    · exact ⟨[], key, value, rest, rfl, nofun, ht, hu⟩
    · exact ⟨(key, value) :: before, bad, found, after, rfl, List.forall_mem_cons.2 ⟨hentry, hb⟩,
        ht, hu⟩

theorem findWritten_cons {name : String} {key : Literal} {value : Datum ν}
    {rest : List (Literal × Datum ν)} (ht : key.text? = none) :
    findWritten name ((key, value) :: rest) =
      match key.written with
      | .error error => .error error
      | .ok written => if written = name then .ok (some value) else findWritten name rest := by
  simp only [findWritten, ht, Option.isSome_none, Bool.false_eq_true, if_false, bind, Except.bind]
  cases key.written with
  | error error => rfl
  | ok written =>
    by_cases heq : written = name
    · simp only [heq, beq_self_eq_true, if_true]
      rfl
    · simp only [beq_iff_eq, heq, if_false]

theorem findWritten_fails_iff {name : String} {entries : List (Literal × Datum ν)} :
    Fails (findWritten name entries) ↔ Unreadable name entries := by
  induction entries with
  | nil =>
    refine iff_of_false (not_fails_ok _) ?_
    rintro ⟨before, key, value, after, heq, _⟩
    cases before <;> cases heq
  | cons entry rest ih =>
    obtain ⟨key, value⟩ := entry
    rw [unreadable_cons, ← ih]
    -- a key that is text is passed over, and any other has to be written to be compared
    cases ht : key.text? with
    | some text => simp [findWritten, ht]
    | none =>
      rw [findWritten_cons ht, ← key.written_fails_iff]
      cases key.written with
      | error error => exact iff_of_true (fails_error error) (.inl ⟨rfl, fails_error error⟩)
      | ok written =>
        by_cases heq : written = name
        · simp [heq, not_fails_ok]
        · simp [heq, not_fails_ok]

/-- The key that a name is, if it is one, decides; only then are other keys written. -/
theorem get?_mapping_fails_iff {name : String} {entries : List (Literal × Datum ν)} :
    Fails ((Fields.mapping entries).get? name) ↔
      (∀ entry ∈ entries, entry.1.text? ≠ some name) ∧ Unreadable name entries := by
  rw [Fields.get?]
  cases hf : entries.find? (fun entry => entry.1.text? == some name) with
  | some entry =>
    refine iff_of_false (not_fails_ok _) ?_
    rintro ⟨hnone, _⟩
    exact hnone entry (List.mem_of_find?_eq_some hf) (by simpa using List.find?_some hf)
  | none =>
    refine findWritten_fails_iff.trans (iff_and_self.2 fun _ => ?_)
    simpa using hf

/-- The value cannot answer to the name: the name is taken for a position and is no numeral, or what it
leads to has no value, or a key that it is compared with cannot be written. -/
inductive Value.Refuses (graph : Graph ν) (name : String) : Value ν → Prop
  | position {items : List (Datum ν)} (hp : isPosition name = true) (hn : ¬ IsNumeral name) :
    Refuses graph name (.list items)
  | item {items : List (Datum ν)} {datum : Datum ν} (hp : isPosition name = true)
    (hn : IsNumeral name) (hi : items[Text.decimalNumber name.toList]? = some datum)
    (hv : datum.Valueless graph) : Refuses graph name (.list items)
  | field {fields : Fields ν} {datum : Datum ν} (hf : fields.get? name = .ok (some datum))
    (hv : datum.Valueless graph) : Refuses graph name (.object fields)
  | key {entries : List (Literal × Datum ν)}
    (ht : ∀ entry ∈ entries, entry.1.text? ≠ some name) (hu : Unreadable name entries) :
    Refuses graph name (.object (.mapping entries))

theorem object_field_fails_iff {graph : Graph ν} {fields : Fields ν} {name : String} :
    Fails ((Value.object fields).field graph name) ↔
      Fails (fields.get? name) ∨
        ∃ datum, fields.get? name = .ok (some datum) ∧ datum.Valueless graph := by
  rw [Value.field]
  cases fields.get? name with
  | error error => exact iff_of_true (fails_error error) (.inl (fails_error error))
  | ok found =>
    rw [or_iff_right (not_fails_ok found)]
    refine wrapFound_fails_iff.trans ?_
    simp only [Except.ok.injEq]

theorem list_field_fails_iff {graph : Graph ν} {items : List (Datum ν)} {name : String} :
    Fails ((Value.list items).field graph name) ↔
      Value.isPosition name = true ∧ (¬ IsNumeral name ∨ IsNumeral name ∧
        ∃ datum, items[Text.decimalNumber name.toList]? = some datum ∧ datum.Valueless graph) := by
  rw [Value.field]
  by_cases hp : Value.isPosition name = true
  · rw [if_pos hp, and_iff_right hp]
    by_cases hn : IsNumeral name
    · simp only [readIndex_of_isNumeral hn, wrapFound_fails_iff, hn, not_true, false_or, true_and]
    · obtain ⟨error, he⟩ := readIndex_fails_iff.2 hn
      simp only [he]
      exact iff_of_true (fails_error error) (.inl hn)
  · rw [if_neg hp]
    exact iff_of_false (not_fails_ok _) fun h => hp h.1

theorem field_fails_iff {graph : Graph ν} {value : Value ν} {name : String} :
    Fails (value.field graph name) ↔ value.Refuses graph name := by
  constructor
  · intro h
    cases value with
    | text | bool => exact absurd h (not_fails_ok _)
    | list items =>
      obtain ⟨hp, hn | ⟨hn, datum, hi, hv⟩⟩ := list_field_fails_iff.1 h
      · exact .position hp hn
      · exact .item hp hn hi hv
    | object fields =>
      rcases object_field_fails_iff.1 h with hf | ⟨datum, hf, hv⟩
      · cases fields with
        | record attributes => exact absurd hf (not_fails_ok _)
        | mapping entries =>
          obtain ⟨ht, hu⟩ := get?_mapping_fails_iff.1 hf
          exact .key ht hu
      · exact .field hf hv
  · intro h
    cases h with
    | position hp hn => exact list_field_fails_iff.2 ⟨hp, .inl hn⟩
    | item hp hn hi hv => exact list_field_fails_iff.2 ⟨hp, .inr ⟨hn, _, hi, hv⟩⟩
    | field hf hv => exact object_field_fails_iff.2 (.inr ⟨_, hf, hv⟩)
    | key ht hu => exact object_field_fails_iff.2 (.inl (get?_mapping_fails_iff.2 ⟨ht, hu⟩))

/-! ## Lookups -/

namespace ContextStack

/-- A lookup of the name comes to ask the value for a part of the name, and has the other parts still
to follow. -/
inductive Asks (graph : Graph ν) (stack : ContextStack ν) (name : String) :
    Value ν → String → List String → Prop
  | frame {inner outer : List (Value ν)} {frame : Value ν}
    (hf : stack.frames = inner ++ frame :: outer)
    (hi : ∀ value ∈ inner, value.field graph (parts name).1 = .ok none) :
    Asks graph stack name frame (parts name).1 (parts name).2
  | next {value next : Value ν} {part following : String} {rest : List String}
    (ha : Asks graph stack name value part (following :: rest))
    (hf : value.field graph part = .ok (some next)) : Asks graph stack name next following rest

variable {graph : Graph ν} {stack : ContextStack ν} {name : String}

theorem findFirst_append {inner others : List (Value ν)} {part : String}
    (hi : ∀ value ∈ inner, value.field graph part = .ok none) :
    findFirst graph part (inner ++ others) = findFirst graph part others := by
  induction inner with
  | nil => rfl
  | cons value rest ih =>
    obtain ⟨hvalue, hrest⟩ := List.forall_mem_cons.1 hi
    simp only [List.cons_append, findFirst, hvalue]
    exact ih hrest

/-- The search ends at the first frame that has something else to say than that it has no such field. -/
theorem exists_findFirst {part : String} {frames : List (Value ν)}
    (h : findFirst graph part frames ≠ .ok none) :
    ∃ inner frame outer, frames = inner ++ frame :: outer ∧
      (∀ value ∈ inner, value.field graph part = .ok none) ∧
      findFirst graph part frames = frame.field graph part := by
  induction frames with
  | nil => exact absurd rfl h
  | cons frame outer ih =>
    by_cases hf : frame.field graph part = .ok none
    · simp only [findFirst, hf] at h ⊢
      obtain ⟨inner, found, further, rfl, hi, heq⟩ := ih h
      exact ⟨frame :: inner, found, further, rfl, List.forall_mem_cons.2 ⟨hf, hi⟩, heq⟩
    · refine ⟨[], frame, outer, rfl, List.forall_mem_nil _, ?_⟩
      simp only [findFirst]
      cases hr : frame.field graph part with
      | error error => rfl
      | ok found =>
        cases found with
        | none => exact absurd hr hf
        | some value => rfl

/-- A value that is asked and has something else to say than that it has no such field decides about
the lookup. -/
theorem lookup_of_asks (hn : name ≠ ".") {value : Value ν} {part : String} {rest : List String}
    (ha : stack.Asks graph name value part rest) (hf : value.field graph part ≠ .ok none) :
    stack.lookup graph name = value.follow graph (part :: rest) := by
  induction ha with
  | @frame inner outer frame hframes hi =>
    simp only [lookup, if_neg hn, hframes, findFirst_append hi, findFirst, Value.follow]
    cases hr : frame.field graph (parts name).1 with
    | error error => rfl
    | ok found =>
      cases found with
      | none => exact absurd hr hf
      | some value => rfl
  | @next value next part following rest _ hnext ih =>
    rw [ih (by rw [hnext]; simp), Value.follow, hnext]

theorem exists_asks_of_follow {value : Value ν} {part : String} {rest : List String}
    (ha : stack.Asks graph name value part rest) (h : Fails (value.follow graph (part :: rest))) :
    ∃ value part rest, stack.Asks graph name value part rest ∧ Fails (value.field graph part) := by
  -- over the rest of the path from any value: the lookup asks each value on the way for the next part
  induction rest generalizing value part with
  | nil =>
    refine ⟨value, part, [], ha, ?_⟩
    simp only [Value.follow] at h
    cases hf : value.field graph part with
    | error error => exact fails_error error
    | ok found => cases found <;> simp [hf, not_fails_ok] at h
  | cons following rest ih =>
    cases hf : value.field graph part with
    | error error => exact ⟨value, part, _, ha, hf ▸ fails_error error⟩
    | ok found =>
      cases found with
      | none => simp [Value.follow, hf, not_fails_ok] at h
      | some next =>
        rw [Value.follow, hf] at h
        exact ih (ha.next hf) h

/-- **A lookup fails iff a value that it asks refuses.** -/
theorem lookup_fails_iff :
    Fails (stack.lookup graph name) ↔
      name ≠ "." ∧ ∃ value part rest, stack.Asks graph name value part rest ∧
        value.Refuses graph part := by
  constructor
  · intro h
    have hn : name ≠ "." := by
      rintro rfl
      exact not_fails_ok _ h
    refine ⟨hn, ?_⟩
    simp only [← field_fails_iff]
    have hfirst : findFirst graph (parts name).1 stack.frames ≠ .ok none := by
      intro hnone
      simp [lookup, hn, hnone, not_fails_ok] at h
    -- the frame that ends the search is the first value asked, and the rest of the name is asked of its
    -- field
    obtain ⟨inner, frame, outer, hframes, hi, heq⟩ := exists_findFirst hfirst
    have ha : stack.Asks graph name frame (parts name).1 (parts name).2 := .frame hframes hi
    rw [lookup_of_asks hn ha (heq ▸ hfirst)] at h
    exact exists_asks_of_follow ha h
  · rintro ⟨hn, value, part, rest, ha, hr⟩
    obtain ⟨error, hf⟩ := field_fails_iff.2 hr
    have hnone : value.field graph part ≠ .ok none := by simp [hf]
    rw [lookup_of_asks hn ha hnone, Value.follow, hf]
    exact fails_error error

/-- Digits that only look like a position fail the lookup, though a list of one item has nothing at any
position but the first. -/
theorem lookup_superscript :
    (⟨.list [.scalar (.text "a")], []⟩ : ContextStack Unit).lookup (fun _ => .list []) "²" =
      .error (.notInteger 10 "²") := by
  rfl

end ContextStack

/-! ## Lookups that do not fail -/

/-- Every part of the name that is taken for a position is a numeral. -/
def Numbered (name : String) : Prop :=
  ∀ part ∈ ContextStack.segments name, Value.isPosition part = true → IsNumeral part

instance (name : String) : Decidable (Numbered name) :=
  inferInstanceAs (Decidable (∀ part ∈ ContextStack.segments name, _ → _))

section Written

variable {graph : Graph ν}

theorem mem_of_findWritten {name : String} {entries : List (Literal × Datum ν)} {datum : Datum ν}
    (h : findWritten name entries = .ok (some datum)) : ∃ key, (key, datum) ∈ entries := by
  induction entries with
  | nil => cases h
  | cons entry rest ih =>
    obtain ⟨key, value⟩ := entry
    have hrest (hr : findWritten name rest = .ok (some datum)) :
        ∃ other, (other, datum) ∈ (key, value) :: rest := by
      obtain ⟨other, hm⟩ := ih hr
      exact ⟨other, List.mem_cons_of_mem _ hm⟩
    cases ht : key.text? with
    | some text =>
      simp only [findWritten, ht, Option.isSome_some, if_true] at h
      exact hrest h
    | none =>
      rw [findWritten_cons ht] at h
      cases hw : key.written with
      | error error => simp [hw] at h
      | ok written =>
        simp only [hw] at h
        split at h
        · cases h
          exact ⟨key, List.mem_cons_self⟩
        · exact hrest h

theorem mem_of_get?_mapping {name : String} {entries : List (Literal × Datum ν)} {datum : Datum ν}
    (h : (Fields.mapping entries).get? name = .ok (some datum)) : ∃ key, (key, datum) ∈ entries := by
  rw [Fields.get?] at h
  split at h
  · next entry hf =>
    cases h
    exact ⟨entry.1, List.mem_of_find?_eq_some hf⟩
  · exact mem_of_findWritten h

theorem mem_of_get?_record {name : String} {attributes : List (String × Datum ν)} {datum : Datum ν}
    (h : (Fields.record attributes).get? name = .ok (some datum)) :
    ∃ key, (key, datum) ∈ attributes := by
  rw [Fields.get?] at h
  split at h
  · cases h
  · obtain ⟨before, after, rfl, _⟩ := List.lookup_eq_some_iff.1 (Except.ok.inj h)
    exact ⟨name, List.mem_append_right _ List.mem_cons_self⟩

/-- A field of an object whose data can be written has a value. -/
theorem not_valueless_of_get? {fields : Fields ν} (hw : (Value.object fields).Written graph)
    {name : String} {datum : Datum ν} (h : fields.get? name = .ok (some datum)) :
    ¬ datum.Valueless graph := by
  cases fields with
  | mapping entries =>
    obtain ⟨key, hm⟩ := mem_of_get?_mapping h
    exact (hw _ hm).2
  | record attributes =>
    obtain ⟨key, hm⟩ := mem_of_get?_record h
    exact hw _ hm

theorem not_refuses_of_written {value : Value ν} {part : String} (hw : value.Written graph)
    (hp : Value.isPosition part = true → IsNumeral part) : ¬ value.Refuses graph part := by
  intro h
  cases h with
  | position hposition hn => exact hn (hp hposition)
  | item _ _ hi hv => exact hw _ (List.mem_of_getElem? hi) hv
  | field hf hv => exact not_valueless_of_get? hw hf hv
  | key _ hu =>
    obtain ⟨before, key, value, after, rfl, _, _, hu⟩ := hu
    exact (hw _ (List.mem_append_right _ List.mem_cons_self)).1 hu

theorem written_of_wrapFound (hg : graph.Written) {found : Option (Datum ν)} {value : Value ν}
    (h : Value.wrapFound graph found = .ok (some value)) : value.Written graph := by
  cases found with
  | none => cases h
  | some datum =>
    simp only [Value.wrapFound] at h
    cases hw : Value.wrap graph datum with
    | error error => simp [hw, Except.map] at h
    | ok wrapped =>
      simp only [hw, Except.map, Except.ok.injEq, Option.some.injEq] at h
      subst h
      exact written_of_wrap hg hw

theorem written_of_field (hg : graph.Written) {value found : Value ν} {name : String}
    (h : value.field graph name = .ok (some found)) : found.Written graph := by
  cases value with
  | text | bool => cases h
  | list items =>
    simp only [Value.field] at h
    split at h
    · split at h
      · exact written_of_wrapFound hg h
      · cases h
    · cases h
  | object fields =>
    simp only [Value.field] at h
    split at h
    · exact written_of_wrapFound hg h
    · cases h

namespace ContextStack

variable {stack : ContextStack ν} {name : String}

theorem Asks.written (hg : graph.Written) (hs : ∀ frame ∈ stack.frames, frame.Written graph)
    {value : Value ν} {part : String} {rest : List String}
    (h : stack.Asks graph name value part rest) : value.Written graph := by
  cases h with
  | frame hf _ =>
    rw [hf] at hs
    exact hs _ (List.mem_append_right _ List.mem_cons_self)
  | next _ hf => exact written_of_field hg hf

theorem Asks.mem_segments {value : Value ν} {part : String} {rest : List String}
    (h : stack.Asks graph name value part rest) :
    ∀ other ∈ part :: rest, other ∈ segments name := by
  induction h with
  | frame => exact fun _ hm => hm
  | next _ _ ih => exact fun other hm => ih other (List.mem_cons_of_mem _ hm)

/-- Where every number can be written, a lookup by numerals does not fail. -/
theorem exists_lookup_eq_ok (hg : graph.Written) (hs : ∀ frame ∈ stack.frames, frame.Written graph)
    (hn : Numbered name) : ∃ found, stack.lookup graph name = .ok found := by
  rw [← not_fails_iff, lookup_fails_iff]
  rintro ⟨_, value, part, rest, ha, hr⟩
  have hpart := ha.mem_segments part List.mem_cons_self
  exact not_refuses_of_written (ha.written hg hs) (hn part hpart) hr

theorem written_of_follow (hg : graph.Written) {value found : Value ν} (hw : value.Written graph)
    {path : List String} (h : value.follow graph path = .ok (some found)) : found.Written graph := by
  induction path generalizing value with
  | nil =>
    cases h
    exact hw
  | cons part rest ih =>
    rw [Value.follow] at h
    split at h
    · next next hf => exact ih (written_of_field hg hf) h
    · cases h
    · cases h

theorem top_mem_frames (stack : ContextStack ν) : stack.top ∈ stack.frames := by
  obtain ⟨root, pushed⟩ := stack
  cases pushed with
  | nil => exact List.mem_singleton_self root
  | cons value rest => exact List.mem_cons_self

theorem written_of_lookup (hg : graph.Written) (hs : ∀ frame ∈ stack.frames, frame.Written graph)
    {found : Value ν} (h : stack.lookup graph name = .ok (some found)) : found.Written graph := by
  rw [lookup] at h
  split at h
  · cases h
    exact hs _ stack.top_mem_frames
  · split at h
    · next first hf =>
      obtain ⟨inner, frame, outer, _, _, heq⟩ := exists_findFirst (by rw [hf]; simp)
      rw [heq] at hf
      exact written_of_follow hg (written_of_field hg hf) h
    · cases h
    · cases h

end ContextStack

end Written

end Stencil

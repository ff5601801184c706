import Mathlib.Data.Nat.Digits.Defs
import Stencil.Proofs.Data.Lookup
import Stencil.Proofs.Data.Parts

/-!
# Positions in a list

A name of decimal digits leads into a list. The number that it denotes is the sum of its digits, each
times the power of ten that its place stands for (`Text.positionalValue`), and what the reader adds up
from left to right is that number (`Text.decimalNumber_eq_positionalValue`). The digits may be of any
scripts.

There are two ways to an item of a list. One is to go over the items from the first on, the other is to
ask for a position. Both look at the datum in that place and at no more of it, so the name of a position
gives what going over the items comes to there (`field_numeral`), unless going over them breaks off at an
item before that has no value. The number of an item as it is usually written is one of its names, and
names that denote one number are one name to a list.
-/

set_option autoImplicit false

namespace Stencil

variable {ν : Type}

/-! ## Numbers by position -/

namespace Text

/-- The number that decimal digits denote, each by its value and its place. The last one counts once. -/
def positionalValue (digits : List Char) : Nat :=
  Nat.ofDigits 10 (digits.map fun c => (decimalValue? c).getD 0).reverse

/-- To add up from the left, with ten times as much for all that came before, is to add up by place. -/
theorem decimalNumber_eq_positionalValue (digits : List Char) :
    decimalNumber digits = positionalValue digits := by
  rw [positionalValue, Nat.ofDigits_eq_foldr, List.foldr_reverse, List.foldl_map, decimalNumber]
  simp only [Nat.cast_id, Nat.add_comm]

theorem isDigit_of_isDecimal {c : Char} (h : isDecimal c = true) : isDigit c = true := by
  rw [isDigit, h, Bool.true_or]

/-- The digits that numbers are written with are the first run of the table. -/
theorem decimalValue?_of_isDigit {c : Char} (h : c.isDigit = true) :
    decimalValue? c = some (c.toNat - '0'.toNat) := by
  obtain ⟨hlow, hhigh⟩ := Char.isDigit_iff_toNat.1 h
  have hfirst : ('0'.toNat ≤ c.toNat && c.toNat < '0'.toNat + 10) = true := by
    have hnine : '9'.toNat < '0'.toNat + 10 := by decide
    rw [Bool.and_eq_true, decide_eq_true_iff, decide_eq_true_iff]
    omega
  obtain ⟨others, hzeros⟩ : ∃ others, decimalZeros = '0'.toNat :: others := ⟨_, rfl⟩
  simp only [decimalValue?, hzeros, List.find?_cons, hfirst, Option.map_some]

theorem isDecimal_of_isDigit {c : Char} (h : c.isDigit = true) : isDecimal c = true := by
  rw [isDecimal, decimalValue?_of_isDigit h]
  rfl

/-- Digits that numbers are written with denote what they are commonly read as. -/
theorem decimalNumber_of_isDigit {digits : List Char} (h : ∀ c ∈ digits, c.isDigit = true) :
    decimalNumber digits = Nat.ofDigitChars 10 digits 0 := by
  rw [Nat.ofDigitChars_eq_foldl, decimalNumber]
  refine List.foldl_ext _ _ 0 fun n c hc => ?_
  rw [decimalValue?_of_isDigit (h c hc), Option.getD_some]

end Text

/-! ## Names of positions -/

theorem isPosition_of_isNumeral {name : String} (hne : name ≠ "") (hn : IsNumeral name) :
    Value.isPosition name = true := by
  have hempty : name.isEmpty = false := by simpa using hne
  rw [Value.isPosition, hempty, Bool.not_false, Bool.true_and, List.all_eq_true]
  exact fun c hc => Text.isDigit_of_isDecimal (hn.1 c hc)

theorem isDigit_of_mem_toString {index : Nat} {c : Char} (h : c ∈ (toString index).toList) :
    c.isDigit = true := by
  rw [Nat.toString_eq_repr, Nat.toList_repr] at h
  exact Nat.isDigit_of_mem_toDigits (by decide) (by decide) h

theorem length_toString_le {index limit : Nat} (hl : 0 < limit) (h : index < Nat.pow 10 limit) :
    (toString index).length ≤ limit :=
  (Nat.length_repr_le_iff hl).2 h

/-- A number is written with no more digits than are read, unless it is a huge one. -/
theorem isNumeral_toString {index : Nat} (h : index < Nat.pow 10 numeralLimit) :
    IsNumeral (toString index) :=
  ⟨fun c hc => Text.isDecimal_of_isDigit (isDigit_of_mem_toString hc),
    length_toString_le (by decide) h⟩

/-- A number that is written is the number that is read. -/
theorem positionalValue_toString (index : Nat) :
    Text.positionalValue (toString index).toList = index := by
  rw [← Text.decimalNumber_eq_positionalValue,
    Text.decimalNumber_of_isDigit fun c hc => isDigit_of_mem_toString hc, Nat.toString_eq_repr,
    Nat.toList_repr, Nat.ofDigitChars_ten_toDigits]

/-! ## Items -/

section Items

variable {graph : Graph ν} {items : List (Datum ν)}

theorem wrapFound_eq_none_iff {found : Option (Datum ν)} :
    Value.wrapFound graph found = .ok none ↔ found = none := by
  cases found with
  | none => exact iff_of_true rfl rfl
  | some datum =>
    refine iff_of_false (fun h => ?_) (Option.some_ne_none datum)
    rw [Value.wrapFound] at h
    cases hw : Value.wrap graph datum with
    | error error =>
      rw [hw] at h
      cases h
    | ok value =>
      rw [hw] at h
      cases h

/-- A list answers to the name of a position with what is in that place. -/
theorem list_field_of_isNumeral {name : String} (hne : name ≠ "") (hn : IsNumeral name) :
    (Value.list items).field graph name =
      Value.wrapFound graph items[Text.positionalValue name.toList]? := by
  simp only [Value.field, isPosition_of_isNumeral hne hn, if_true, readIndex_of_isNumeral hn,
    Text.decimalNumber_eq_positionalValue]

/-- Each item that going over a list gives is the value of the datum in its place. -/
theorem wrapFound_of_items {values : List (Value ν)}
    (h : (Value.list items).items graph = .ok values) (index : Nat) :
    Value.wrapFound graph items[index]? = .ok values[index]? := by
  have hplace := congrArg (·[index]?) (mapM_eq_ok_iff.1 h)
  simp only [List.getElem?_map] at hplace
  cases hitem : items[index]? with
  | none =>
    rw [hitem, Option.map_none, eq_comm, Option.map_eq_none_iff] at hplace
    rw [hplace]
    rfl
  | some datum =>
    rw [hitem, Option.map_some, eq_comm, Option.map_eq_some_iff] at hplace
    obtain ⟨value, hvalue, heq⟩ := hplace
    rw [hvalue, Value.wrapFound, ← heq]
    rfl

/-- Going over the items of a list takes one step after the other, and each step gives the value of the
next datum, if there is another one, or fails with it. -/
theorem items_take_succ {earlier : List (Value ν)} {index : Nat}
    (h : (Value.list (items.take index)).items graph = .ok earlier) :
    (Value.list (items.take (index + 1))).items graph =
      (Value.wrapFound graph items[index]?).map (earlier ++ ·.toList) := by
  rw [Value.items] at h
  rw [Value.items, List.take_add_one, List.mapM_append, h]
  cases items[index]? with
  | none => rfl
  | some datum =>
    rw [Option.toList_some, List.mapM_cons, List.mapM_nil, Value.wrapFound]
    cases Value.wrap graph datum <;> rfl

end Items

/-- **A name of decimal digits gives the item in the place that it denotes.** There is none if and only if
the list is not longer than that. If going over the items comes to an end, the item is the one that it
came to there; and if it only comes to that place, then it goes on with what the name gives, be it a
value or a failure. What else a name is made of makes no difference, so names that denote one number give
the same. And the number of an item as it is written gives that item; a number that is too long to be read
is not the number of an item in any list that fits anywhere. -/
theorem field_numeral (graph : Graph ν) (items : List (Datum ν)) :
    (∀ name, name ≠ "" → IsNumeral name →
      let index := Text.positionalValue name.toList
      ((Value.list items).field graph name = .ok none ↔ items.length ≤ index) ∧
      (∀ values, (Value.list items).items graph = .ok values →
        values.length = items.length ∧ (Value.list items).field graph name = .ok values[index]?) ∧
      (∀ earlier, (Value.list (items.take index)).items graph = .ok earlier →
        (Value.list (items.take (index + 1))).items graph =
          ((Value.list items).field graph name).map (earlier ++ ·.toList)) ∧
      ∀ other, other ≠ "" → IsNumeral other → Text.positionalValue other.toList = index →
        (Value.list items).field graph other = (Value.list items).field graph name) ∧
    ∀ (index : Nat) (h : index < items.length), index < Nat.pow 10 numeralLimit →
      (Value.list items).follow graph [toString index] =
        (Value.wrap graph items[index]).map some := by
  refine ⟨fun name hne hn => ⟨?_, fun values hv => ⟨length_of_mapM hv, ?_⟩, fun earlier he => ?_, ?_⟩,
    fun index h hi => ?_⟩
  · rw [list_field_of_isNumeral hne hn, wrapFound_eq_none_iff, List.getElem?_eq_none_iff]
  · rw [list_field_of_isNumeral hne hn, wrapFound_of_items hv]
  · rw [list_field_of_isNumeral hne hn, items_take_succ he]
  · intro other hother ho heq
    rw [list_field_of_isNumeral hne hn, list_field_of_isNumeral hother ho, heq]
  -- a number as it is written is a numeral for itself, unless it has too many digits to be read
  · have hne : toString index ≠ "" := Nat.repr_ne_empty
    rw [follow_singleton, list_field_of_isNumeral hne (isNumeral_toString hi),
      positionalValue_toString, List.getElem?_eq_getElem h]
    rfl

/-- A list of a text and a truth value. -/
def pairOfItems : List (Datum Unit) := [.scalar (.text "a"), .scalar (.bool true)]

/-- Zeros of two scripts before a one of a third make no difference. -/
theorem field_numeral_mixed :
    let graph : Graph Unit := fun _ => .list []
    ("0٠１" ≠ "" ∧ IsNumeral "0٠１" ∧ Text.positionalValue "0٠１".toList = 1) ∧
      (Value.list pairOfItems).items graph = .ok [.text "a", .bool true] ∧
      (Value.list pairOfItems).field graph "0٠１" = .ok (some (.bool true)) ∧
      (Value.list pairOfItems).field graph "1" = (Value.list pairOfItems).field graph "0٠１" ∧
      (Value.list pairOfItems).field graph "٢" = .ok none ∧
      (Value.list pairOfItems).follow graph [toString 0] = .ok (some (.text "a")) := by
  intro graph
  have hvalue : Text.positionalValue "0٠１".toList = 1 := by decide
  have hone : Text.positionalValue "1".toList = 1 := by decide
  have htwo : Text.positionalValue "٢".toList = 2 := by decide
  have hitems : (Value.list pairOfItems).items graph = .ok [.text "a", .bool true] := rfl
  obtain ⟨hnames, hnumbers⟩ := field_numeral graph pairOfItems
  obtain ⟨_, hgives, _, hsame⟩ := hnames "0٠１" (by decide) (by decide)
  obtain ⟨hnone, _⟩ := hnames "٢" (by decide) (by decide)
  refine ⟨⟨by decide, by decide, hvalue⟩, hitems, ?_, ?_, ?_, ?_⟩
  · rw [(hgives _ hitems).2, hvalue]
    rfl
  · exact hsame "1" (by decide) (by decide) (hone.trans hvalue.symm)
  · exact hnone.2 (htwo ▸ Nat.le_refl 2)
  · refine hnumbers 0 (by decide) ?_
    rw [Nat.pow_eq]
    exact Nat.pow_pos (by decide)

end Stencil

import Stencil.Context.Stack
import Stencil.Proofs.Text.Words

/-!
# Names and their parts

A name without a dot is its own only part, also if it is empty, and to look it up is to ask one value
after another for a field of that name. Names put together with dots between them come apart into the
same names again (`parts_dotted`), so that a dotted name is looked up by its first part and followed by
the others.
-/

set_option autoImplicit false

namespace Stencil

variable {ν : Type}

/-- A name with one part that is not empty. -/
structure Undotted (name : String) : Prop where
  ne_empty : name ≠ ""
  not_mem : '.' ∉ name.toList

/-- The names with dots between them. -/
def dotted (names : List String) : String := ".".intercalate names

theorem dotted_singleton (name : String) : dotted [name] = name := String.intercalate_singleton

/-- To follow one part is to ask for that field. -/
theorem follow_singleton {graph : Graph ν} (start : Value ν) (part : String) :
    start.follow graph [part] = start.field graph part := by
  rw [Value.follow]
  cases start.field graph part with
  | error error => rfl
  | ok found => cases found <;> rfl

namespace ContextStack

theorem parts_of_not_mem {name : String} (h : '.' ∉ name.toList) : parts name = (name, []) := by
  rw [parts, Text.split_of_not_mem h]
  simp

/-- The parts of a dotted name are the names that it was made of. -/
theorem parts_dotted {first : String} {rest : List String} (hf : Undotted first)
    (hr : ∀ name ∈ rest, Undotted name) : parts (dotted (first :: rest)) = (first, rest) := by
  have hlist : (dotted (first :: rest)).toList =
      ['.'].intercalate (first.toList :: rest.map String.toList) := String.toList_intercalate
  have hrest : ∀ part ∈ rest.map String.toList, '.' ∉ part := by
    intro part hm
    obtain ⟨name, hname, rfl⟩ := List.mem_map.1 hm
    exact (hr name hname).not_mem
  rw [parts, hlist, Text.split_intercalate hf.not_mem hrest]
  simp [Function.comp_def]

/-- What starts with a dot, or is empty, is not made of such names. -/
theorem dotted_ne {names : List String} (hne : names ≠ []) (hn : ∀ name ∈ names, Undotted name)
    {other : String} (ho : (parts other).1 = "") : dotted names ≠ other := by
  cases names with
  | nil => exact absurd rfl hne
  | cons first rest =>
    obtain ⟨hf, hr⟩ := List.forall_mem_cons.1 hn
    rintro rfl
    rw [parts_dotted hf hr] at ho
    exact hf.ne_empty ho

variable {graph : Graph ν} {stack : ContextStack ν}

/-- A name without a dot is looked up as it is. -/
theorem lookup_of_not_mem {name : String} (h : '.' ∉ name.toList) :
    stack.lookup graph name = findFirst graph name stack.frames := by
  have hne : name ≠ "." := by
    rintro rfl
    exact h List.mem_cons_self
  rw [lookup, if_neg hne, parts_of_not_mem h]
  cases findFirst graph name stack.frames with
  | error error => rfl
  | ok found => cases found <;> rfl

/-- A dotted name is followed from the value that its first part picks. -/
theorem lookup_dotted {first : String} {rest : List String} (hf : Undotted first)
    (hr : ∀ name ∈ rest, Undotted name) {value : Value ν}
    (hv : findFirst graph first stack.frames = .ok (some value)) :
    stack.lookup graph (dotted (first :: rest)) = value.follow graph rest := by
  have hne : dotted (first :: rest) ≠ "." :=
    dotted_ne (List.cons_ne_nil first rest) (List.forall_mem_cons.2 ⟨hf, hr⟩) rfl
  simp only [lookup, if_neg hne, parts_dotted hf hr, hv]

/-- The value that was pushed last is asked first. -/
theorem lookup_push_of_field {value found : Value ν} {name : String} (hn : '.' ∉ name.toList)
    (hf : value.field graph name = .ok (some found)) :
    (stack.push value).lookup graph name = .ok (some found) := by
  rw [lookup_of_not_mem hn]
  show findFirst graph name (value :: stack.frames) = _
  rw [findFirst, hf]

end ContextStack

end Stencil

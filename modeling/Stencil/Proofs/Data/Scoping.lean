import Stencil.Proofs.Data.Lookup
import Stencil.Proofs.Data.Parts

/-!
# Which value a name means

The first part of a name is looked for in one frame after another, and the innermost frame that has a
field of that name settles which frame it is: the other parts are followed from there, and nothing
further out is come back to. `Means` says this of the frames and their fields alone.

A lookup that does not fail finds what the name means, and nothing if it means nothing
(`lookup_settled`). So a name can only be shadowed by a value that has a field of its first part. What
such a field holds makes no difference: one that is false or empty shadows as well as any other.
-/

set_option autoImplicit false

namespace Stencil

variable {ν : Type} {graph : Graph ν}

/-! ## Parts and paths -/

namespace ContextStack

/-- The parts of a name, with dots between them, are the name. -/
theorem dotted_segments (name : String) : dotted (segments name) = name := by
  apply String.toList_inj.1
  rw [dotted, String.toList_intercalate]
  conv_rhs => rw [← Text.intercalate_split '.' name.toList]
  simp only [segments, parts, List.map_cons, List.map_map, Function.comp_def, String.toList_ofList,
    List.map_id']
  rfl

theorem not_mem_segments {name part : String} (h : part ∈ segments name) : '.' ∉ part.toList := by
  have hpart : part.toList ∈ (Text.split (· == '.') name.toList).1 ::
      (Text.split (· == '.') name.toList).2 := by
    simp only [segments, parts, List.mem_cons, List.mem_map] at h
    rcases h with rfl | ⟨chars, hm, rfl⟩
    · rw [String.toList_ofList]
      exact List.mem_cons_self
    · rw [String.toList_ofList]
      exact List.mem_cons_of_mem _ hm
  intro hdot
  exact absurd (Text.not_isSeparator_of_mem_split hpart '.' hdot) (by decide)

end ContextStack

namespace Value

/-- There is a field of this name. -/
def Has (graph : Graph ν) (value : Value ν) (part : String) : Prop :=
  ∃ field, value.field graph part = .ok (some field)

/-- From the first value one field after the other leads to the last. -/
inductive Reaches (graph : Graph ν) : Value ν → List String → Value ν → Prop
  | here {value : Value ν} : Reaches graph value [] value
  | next {value field last : Value ν} {part : String} {rest : List String}
    (hf : value.field graph part = .ok (some field)) (hr : Reaches graph field rest last) :
    Reaches graph value (part :: rest) last

theorem follow_eq_some_iff {value last : Value ν} {path : List String} :
    value.follow graph path = .ok (some last) ↔ value.Reaches graph path last := by
  constructor
  · intro h
    induction path generalizing value with
    | nil =>
      cases h
      exact .here
    | cons part rest ih =>
      rw [follow] at h
      split at h
      · next field hf => exact .next hf (ih h)
      · cases h
      · cases h
  · intro h
    induction h with
    | here => rfl
    | next hf _ ih =>
      rw [follow, hf]
      exact ih

end Value

/-! ## Frames -/

namespace ContextStack

/-- The innermost frame that has a field of the first part of the name leads to the value, by that part
and all others. -/
def Means (graph : Graph ν) (stack : ContextStack ν) (name : String) (value : Value ν) : Prop :=
  ∃ inner frame outer, stack.frames = inner ++ frame :: outer ∧
    (∀ other ∈ inner, ¬ other.Has graph (parts name).1) ∧ frame.Has graph (parts name).1 ∧
    frame.Reaches graph (segments name) value

variable {stack : ContextStack ν} {name : String}

/-- A frame in which the search ends ends it whatever is further out. -/
theorem findFirst_append_cons {part : String} {inner outer others : List (Value ν)} {frame : Value ν}
    (h : frame.Has graph part) :
    findFirst graph part (inner ++ frame :: outer) = findFirst graph part (inner ++ frame :: others) := by
  induction inner with
  | nil =>
    obtain ⟨field, hf⟩ := h
    simp only [List.nil_append, findFirst, hf]
  | cons value rest ih => simp only [List.cons_append, findFirst, ih]

theorem lookup_congr (hn : name ≠ ".") {other : ContextStack ν}
    (h : findFirst graph (parts name).1 stack.frames = findFirst graph (parts name).1 other.frames) :
    stack.lookup graph name = other.lookup graph name := by
  simp only [lookup, if_neg hn, h]

/-- Frames that have no such field and do not fail either say so. -/
theorem field_eq_none_of_not_has {part : String} {inner outer : List (Value ν)} {frame : Value ν}
    (hf : ¬ Fails (findFirst graph part (inner ++ frame :: outer)))
    (hi : ∀ other ∈ inner, ¬ other.Has graph part) :
    ∀ other ∈ inner, other.field graph part = .ok none := by
  induction inner with
  | nil => exact nofun
  | cons value rest ih =>
    obtain ⟨hvalue, hrest⟩ := List.forall_mem_cons.1 hi
    rw [List.cons_append, findFirst] at hf
    -- a frame that fails would make the search fail, so it says that it has none or has one
    cases hr : value.field graph part with
    | error error =>
      rw [hr] at hf
      exact absurd (fails_error error) hf
    | ok found =>
      cases found with
      | some field => exact absurd ⟨field, hr⟩ hvalue
      | none =>
        rw [hr] at hf
        exact List.forall_mem_cons.2 ⟨hr, ih hf hrest⟩

theorem not_fails_findFirst (hn : name ≠ ".") (hr : ¬ Fails (stack.lookup graph name)) :
    ¬ Fails (findFirst graph (parts name).1 stack.frames) := by
  rintro ⟨error, he⟩
  simp only [lookup, if_neg hn, he] at hr
  exact hr (fails_error error)

/-- What is found is what the name means. -/
theorem lookup_eq_some_iff (hn : name ≠ ".") (hr : ¬ Fails (stack.lookup graph name))
    {value : Value ν} : stack.lookup graph name = .ok (some value) ↔ stack.Means graph name value := by
  constructor
  · intro h
    have hfirst : findFirst graph (parts name).1 stack.frames ≠ .ok none := by
      intro hnone
      simp [lookup, hn, hnone] at h
    obtain ⟨inner, frame, outer, hframes, hi, heq⟩ := exists_findFirst hfirst
    rw [heq] at hfirst
    rw [lookup_of_asks hn (.frame hframes hi) hfirst, Value.follow_eq_some_iff] at h
    refine ⟨inner, frame, outer, hframes, ?_, ?_, h⟩
    · rintro other hm ⟨field, hf⟩
      rw [hi other hm] at hf
      cases hf
    · cases h with
      | next hf _ => exact ⟨_, hf⟩
  · rintro ⟨inner, frame, outer, hframes, hi, ⟨field, hf⟩, hreaches⟩
    have hfirst := not_fails_findFirst hn hr
    rw [hframes] at hfirst
    -- the frames further in do not have the field, and that they do not fail is known from the lookup
    have hasks : stack.Asks graph name frame (parts name).1 (parts name).2 :=
      .frame hframes (field_eq_none_of_not_has hfirst hi)
    rw [lookup_of_asks hn hasks (by rw [hf]; simp)]
    exact Value.follow_eq_some_iff.2 hreaches

theorem frames_foldl_push (values : List (Value ν)) (stack : ContextStack ν) :
    (values.foldl (fun below value => below.push value) stack).frames =
      values.reverse ++ stack.frames := by
  induction values generalizing stack with
  | nil => rfl
  | cons value rest ih =>
    rw [List.foldl_cons, ih, List.reverse_cons, List.append_assoc]
    rfl

/-- **A lookup that does not fail finds what the name means.** The parts of the name are what is between
its dots. Frames further out than the one that settles it make no difference, nor does pushing values
without a field of the first part. The name that is a dot means the innermost value, which is the one
that was pushed last. -/
theorem lookup_settled (graph : Graph ν) (stack : ContextStack ν) (name : String) (hn : name ≠ ".")
    (hr : ¬ Fails (stack.lookup graph name)) :
    (dotted (segments name) = name ∧ ∀ part ∈ segments name, '.' ∉ part.toList) ∧
      (∀ value, stack.lookup graph name = .ok (some value) ↔ stack.Means graph name value) ∧
      (stack.lookup graph name = .ok none ↔ ∀ value, ¬ stack.Means graph name value) ∧
      (∀ (other : ContextStack ν) (inner outer others : List (Value ν)) (frame : Value ν),
        stack.frames = inner ++ frame :: outer → other.frames = inner ++ frame :: others →
        frame.Has graph (parts name).1 → other.lookup graph name = stack.lookup graph name) ∧
      (∀ values : List (Value ν), (∀ value ∈ values, value.field graph (parts name).1 = .ok none) →
        (values.foldl (fun below value => below.push value) stack).lookup graph name =
          stack.lookup graph name) ∧
      (∀ value, (stack.push value).lookup graph "." = .ok (some value)) ∧
      stack.lookup graph "." = .ok stack.frames.head? := by
  refine ⟨⟨dotted_segments name, fun part hm => not_mem_segments hm⟩,
    fun value => lookup_eq_some_iff hn hr, ?_, ?_, ?_, fun value => rfl, ?_⟩
  · obtain ⟨found, hfound⟩ := not_fails_iff.1 hr
    simp only [← lookup_eq_some_iff hn hr, hfound]
    cases found with
    | none => simp
    | some value => simp
  · intro other inner outer others frame hframes hothers hhas
    -- only the search over the frames can tell two stacks apart, and it ends at that frame on both
    apply lookup_congr hn
    rw [hframes, hothers]
    exact findFirst_append_cons hhas
  · intro values hvalues
    apply lookup_congr hn
    rw [frames_foldl_push]
    exact findFirst_append fun value hm => hvalues value (List.mem_reverse.1 hm)
  · obtain ⟨root, pushed⟩ := stack
    cases pushed <;> rfl

/-- Below a text and a list of one item there are two mappings. In the one further in, `a` is an empty
mapping; in the root, `a` is a mapping that has `b`, and `3` is nothing. -/
def shadowedGraph : Graph Nat :=
  Graph.ofArray #[
    .mapping [(.text "a", .container 1), (.text "3", .scalar .null)],
    .mapping [(.text "b", .scalar (.text "deep"))],
    .mapping []]

def shadowed : ContextStack Nat where
  root := .object (.mapping [(.text "a", .container 1), (.text "3", .scalar .null)])
  pushed := [.text "t", .list [.scalar (.text "x")], .object (.mapping [(.text "a", .container 2)])]

/-- The `a` of the mapping further in hides `a.b`, while `3` means nothing in any frame but the root,
where it is false. -/
theorem lookup_settled_shadowed :
    ("a.b" ≠ "." ∧ ¬ Fails (shadowed.lookup shadowedGraph "a.b") ∧
      ∀ value, ¬ shadowed.Means shadowedGraph "a.b" value) ∧
    ("3" ≠ "." ∧ ¬ Fails (shadowed.lookup shadowedGraph "3") ∧
      shadowed.Means shadowedGraph "3" (.bool false) ∧
      ((shadowed.push (.bool true)).push (.list [])).lookup shadowedGraph "3" =
        .ok (some (.bool false))) := by
  have hhidden : shadowed.lookup shadowedGraph "a.b" = .ok none := rfl
  have hfound : shadowed.lookup shadowedGraph "3" = .ok (some (.bool false)) := rfl
  have hh : ¬ Fails (shadowed.lookup shadowedGraph "a.b") := hhidden ▸ not_fails_ok none
  have hf : ¬ Fails (shadowed.lookup shadowedGraph "3") := hfound ▸ not_fails_ok _
  obtain ⟨_, _, hnone, _⟩ := lookup_settled shadowedGraph shadowed "a.b" (by decide) hh
  obtain ⟨_, hsome, _, _, hpush, _⟩ := lookup_settled shadowedGraph shadowed "3" (by decide) hf
  have hlacks : ∀ value ∈ [Value.bool true, .list []],
      value.field shadowedGraph (parts "3").1 = .ok none := by
    rintro value (_ | ⟨_, _ | ⟨_, ⟨⟩⟩⟩) <;> rfl
  exact ⟨⟨by decide, hh, hnone.1 hhidden⟩, by decide, hf, (hsome _).1 hfound,
    (hpush _ hlacks).trans hfound⟩

end ContextStack

end Stencil

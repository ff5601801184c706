import Stencil.Template.Draft

/-!
# Which section end belongs to which section begin

Sections are paired by counting. Going on from a section begin, each further begin makes it one deeper
and each end one less deep, and the end that finds nothing deeper is its partner (`partner?`). Started
from the beginning of a source, the same count finds the first end that belongs to no section at all:
the first one before which as many sections ended as began (`partner?_eq_some_iff`).

Names play no part in this. `Unclosed` is where they come in, and it looks at them only after a whole
source has been paired.
-/

set_option autoImplicit false

namespace Stencil.Template

/-! ## First places -/

/-- Of the places in a list of tags where something is so, this is the first: these tags come before
it, and this one is there. -/
structure First (holds : List Tag → Tag → Prop) (before : List Tag) (tag : Tag) : Prop where
  here : holds before tag
  first : ∀ {earlier other}, holds earlier other → before.length ≤ earlier.length

section First

variable {holds others : List Tag → Tag → Prop} {head : Tag}

theorem exists_first_iff_eq (hh : holds [] head) (hn : ∀ {tag}, holds [] tag → tag = head)
    {tag : Tag} : (∃ before, First holds before tag) ↔ tag = head := by
  constructor
  · rintro ⟨before, hb, hf⟩
    have hnil : before = [] := List.length_eq_zero_iff.1 (Nat.le_zero.1 (hf hh))
    subst hnil
    exact hn hb
  · rintro rfl
    exact ⟨[], hh, fun _ => Nat.zero_le _⟩

/-- If it is not so at the start of the list, the first place is the first of those after it. -/
theorem exists_first_iff_cons
    (h : ∀ before tag, holds before tag ↔ ∃ later, before = head :: later ∧ others later tag)
    {tag : Tag} : (∃ before, First others before tag) ↔ ∃ before, First holds before tag := by
  constructor
  · rintro ⟨later, hl, hf⟩
    refine ⟨head :: later, (h _ _).2 ⟨later, rfl, hl⟩, fun {earlier other} he => ?_⟩
    obtain ⟨sooner, rfl, hs⟩ := (h _ _).1 he
    simpa using hf hs
  · rintro ⟨before, hb, hf⟩
    obtain ⟨later, rfl, hl⟩ := (h _ _).1 hb
    refine ⟨later, hl, fun {earlier other} he => ?_⟩
    simpa using hf ((h _ _).2 ⟨earlier, rfl, he⟩)

theorem exists_first {before : List Tag} {tag : Tag} (h : holds before tag) :
    ∃ before tag, First holds before tag := by
  by_cases hs : ∃ earlier other, holds earlier other ∧ earlier.length < before.length
  · obtain ⟨earlier, other, he, hlt⟩ := hs
    exact exists_first he
  · refine ⟨before, tag, h, fun {earlier other} he => ?_⟩
    exact Nat.not_lt.1 fun hlt => hs ⟨earlier, other, he, hlt⟩
termination_by before.length

/-- What finds the first place finds nothing if and only if there is none. -/
theorem eq_none_iff_of_first {found : Option Tag}
    (h : ∀ {tag}, found = some tag ↔ ∃ before, First holds before tag) :
    found = none ↔ ∀ before tag, ¬ holds before tag := by
  constructor
  · intro hn before tag hb
    obtain ⟨first, other, hf⟩ := exists_first hb
    rw [h.2 ⟨first, hf⟩] at hn
    cases hn
  · intro hn
    cases hf : found with
    | none => rfl
    | some tag =>
      obtain ⟨before, hb, _⟩ := h.1 hf
      exact absurd hb (hn before tag)

end First

/-! ## Section ends that close nothing -/

def begun (tags : List Tag) : Nat := tags.countP Tag.isSectionBegin

def ended (tags : List Tag) : Nat := tags.countP Tag.isSectionEnd

/-- The first section end that closes none of the sections begun among the tags, nor one of so many
that are open besides. -/
def partner? : Nat → List Tag → Option Tag
  | _, [] => none
  | depth, tag :: rest =>
    if tag.isSectionBegin then partner? (depth + 1) rest
    else if tag.isSectionEnd then
      match depth with
      | 0 => some tag
      | depth + 1 => partner? depth rest
    else partner? depth rest

theorem isSectionEnd_of_isSectionBegin {tag : Tag} (h : tag.isSectionBegin = true) :
    tag.isSectionEnd = false := by
  cases ht : tag.type <;> simp_all [Tag.isSectionBegin, Tag.isSectionEnd]

theorem isSectionBegin_of_isSectionEnd {tag : Tag} (h : tag.isSectionEnd = true) :
    tag.isSectionBegin = false := by
  cases ht : tag.type <;> simp_all [Tag.isSectionBegin, Tag.isSectionEnd]

/-- At this tag, after these, a section ends although as many ended as there were: `depth` of them to
start with and those that began since. -/
structure Unmatched (depth : Nat) (tags before : List Tag) (tag : Tag) : Prop where
  reached : before ++ [tag] <+: tags
  isEnd : tag.isSectionEnd = true
  counts : ended before = begun before + depth

section Counting

variable {depth rest : Nat} {head : Tag} {tags : List Tag}

/-- If the first tag is not unmatched, and the others are counted from the depth after it, what is
unmatched comes later. -/
theorem unmatched_cons_iff (hh : head.isSectionEnd = true → depth ≠ 0)
    (hd : ∀ before, ended (head :: before) = begun (head :: before) + depth ↔
      ended before = begun before + rest) (before : List Tag) (tag : Tag) :
    Unmatched depth (head :: tags) before tag ↔
      ∃ later, before = head :: later ∧ Unmatched rest tags later tag := by
  constructor
  · rintro ⟨hr, he, hc⟩
    cases before with
    | nil =>
      -- with nothing before it, the end is unmatched only if nothing was open
      obtain ⟨rfl, _⟩ := List.cons_prefix_cons.1 hr
      refine absurd ?_ (hh he)
      simpa [ended, begun] using hc.symm
    | cons first later =>
      rw [List.cons_append, List.cons_prefix_cons] at hr
      obtain ⟨rfl, hr⟩ := hr
      exact ⟨later, rfl, hr, he, (hd later).1 hc⟩
  · rintro ⟨later, rfl, hr, he, hc⟩
    refine ⟨?_, he, (hd later).2 hc⟩
    rw [List.cons_append, List.cons_prefix_cons]
    exact ⟨rfl, hr⟩

theorem partner?_nil (depth : Nat) : partner? depth [] = none := by
  rw [partner?]

theorem partner?_cons_of_begin (hb : head.isSectionBegin = true) :
    partner? depth (head :: tags) = partner? (depth + 1) tags := by
  rw [partner?.eq_def]
  simp only [hb, if_true]

theorem partner?_zero_cons_of_end (he : head.isSectionEnd = true) :
    partner? 0 (head :: tags) = some head := by
  rw [partner?.eq_def]
  simp only [isSectionBegin_of_isSectionEnd he, he, Bool.false_eq_true, if_false, if_true]

theorem partner?_succ_cons_of_end (he : head.isSectionEnd = true) :
    partner? (depth + 1) (head :: tags) = partner? depth tags := by
  rw [partner?.eq_def]
  simp only [isSectionBegin_of_isSectionEnd he, he, Bool.false_eq_true, if_false, if_true]

theorem partner?_cons_of_other (hb : head.isSectionBegin = false) (he : head.isSectionEnd = false) :
    partner? depth (head :: tags) = partner? depth tags := by
  rw [partner?.eq_def]
  simp only [hb, he, Bool.false_eq_true, if_false]

theorem ended_cons (before : List Tag) :
    ended (head :: before) = ended before + if head.isSectionEnd then 1 else 0 :=
  List.countP_cons

theorem begun_cons (before : List Tag) :
    begun (head :: before) = begun before + if head.isSectionBegin then 1 else 0 :=
  List.countP_cons

/-- **A partner is the first section end that is unmatched.** -/
theorem partner?_eq_some_iff {tag : Tag} :
    partner? depth tags = some tag ↔ ∃ before, First (Unmatched depth tags) before tag := by
  induction tags generalizing depth with
  | nil =>
    constructor
    · intro h
      cases h
    · rintro ⟨before, hu, _⟩
      simpa using hu.reached
  | cons head tags ih =>
    -- the count of the other tags starts from the depth that the first one leaves
    cases hb : head.isSectionBegin with
    | true =>
      have he := isSectionEnd_of_isSectionBegin hb
      rw [partner?_cons_of_begin hb, ih]
      refine exists_first_iff_cons (unmatched_cons_iff (fun h => ?_) fun before => ?_)
      · rw [he] at h
        cases h
      · rw [ended_cons, begun_cons, hb, he]
        simp only [Bool.false_eq_true, if_false, if_true]
        omega
    | false =>
      cases he : head.isSectionEnd with
      | true =>
        cases depth with
        | zero =>
          rw [partner?_zero_cons_of_end he, Option.some.injEq, eq_comm]
          refine (exists_first_iff_eq ⟨⟨tags, rfl⟩, he, rfl⟩ fun {other} hu => ?_).symm
          exact (List.cons_prefix_cons.1 hu.reached).1
        | succ depth =>
          rw [partner?_succ_cons_of_end he, ih]
          refine exists_first_iff_cons
            (unmatched_cons_iff (fun _ => Nat.succ_ne_zero depth) fun before => ?_)
          rw [ended_cons, begun_cons, hb, he]
          simp only [Bool.false_eq_true, if_false, if_true]
          omega
      | false =>
        rw [partner?_cons_of_other hb he, ih]
        refine exists_first_iff_cons (unmatched_cons_iff (fun h => ?_) fun before => ?_)
        · rw [he] at h
          cases h
        · rw [ended_cons, begun_cons, hb, he]
          rfl

theorem partner?_eq_none_iff :
    partner? depth tags = none ↔ ∀ before tag, ¬ Unmatched depth tags before tag :=
  eq_none_iff_of_first partner?_eq_some_iff

end Counting

/-! ## Sections that are not closed -/

/-- After the section begin come these tags, and its partner is among them and has its name. -/
def Closes (opening : Tag) (after : List Tag) : Prop :=
  ∃ closing, partner? 0 after = some closing ∧ closing.name = opening.name

/-- At this tag, after these, a section begins that is not closed under its name. -/
structure Unclosed (tags before : List Tag) (tag : Tag) : Prop where
  reached : ∃ after, tags = before ++ tag :: after ∧ ¬ Closes tag after
  isBegin : tag.isSectionBegin = true

/-- The first section begin that is not closed. -/
def unclosedOf? : List Tag → Option Tag
  | [] => none
  | tag :: rest =>
    if tag.isSectionBegin && !Draft.isClosed tag (partner? 0 rest) then some tag
    else unclosedOf? rest

theorem isClosed_iff {opening : Tag} {after : List Tag} :
    Draft.isClosed opening (partner? 0 after) = true ↔ Closes opening after := by
  unfold Draft.isClosed Closes
  cases partner? 0 after with
  | none => simp
  | some closing => simp

theorem unclosed_cons_iff {head tag : Tag} {rest before : List Tag} :
    Unclosed (head :: rest) before tag ↔
      (before = [] ∧ tag = head ∧ head.isSectionBegin = true ∧ ¬ Closes head rest) ∨
        ∃ later, before = head :: later ∧ Unclosed rest later tag := by
  constructor
  · rintro ⟨⟨after, heq, hc⟩, hb⟩
    cases before with
    | nil =>
      obtain ⟨rfl, rfl⟩ := List.cons.inj heq
      exact .inl ⟨rfl, rfl, hb, hc⟩
    | cons first later =>
      obtain ⟨rfl, rfl⟩ := List.cons.inj heq
      exact .inr ⟨later, rfl, ⟨after, rfl, hc⟩, hb⟩
  · rintro (⟨rfl, rfl, hb, hc⟩ | ⟨later, rfl, ⟨after, rfl, hc⟩, hb⟩)
    · exact ⟨⟨rest, rfl, hc⟩, hb⟩
    · exact ⟨⟨after, rfl, hc⟩, hb⟩

theorem unclosedOf?_cons_of_open {head : Tag} {rest : List Tag} (hb : head.isSectionBegin = true)
    (hc : ¬ Closes head rest) : unclosedOf? (head :: rest) = some head := by
  rw [← isClosed_iff, Bool.not_eq_true] at hc
  rw [unclosedOf?, hb, hc]
  rfl

theorem unclosedOf?_cons {head : Tag} {rest : List Tag}
    (h : head.isSectionBegin = true → Closes head rest) :
    unclosedOf? (head :: rest) = unclosedOf? rest := by
  cases hb : head.isSectionBegin with
  | false => rw [unclosedOf?, hb, Bool.false_and, if_neg Bool.false_ne_true]
  | true => rw [unclosedOf?, hb, isClosed_iff.2 (h hb), Bool.not_true, Bool.and_false,
      if_neg Bool.false_ne_true]

theorem unclosedOf?_eq_some_iff {tags : List Tag} {tag : Tag} :
    unclosedOf? tags = some tag ↔ ∃ before, First (Unclosed tags) before tag := by
  induction tags with
  | nil =>
    constructor
    · intro h
      cases h
    · rintro ⟨before, ⟨⟨after, heq, _⟩, _⟩, _⟩
      simp at heq
  | cons head rest ih =>
    -- the head is the answer if it is open, and else whatever it is makes no difference to the rest
    by_cases ho : head.isSectionBegin = true ∧ ¬ Closes head rest
    · obtain ⟨hb, hc⟩ := ho
      rw [unclosedOf?_cons_of_open hb hc, Option.some.injEq, eq_comm]
      refine (exists_first_iff_eq ⟨⟨rest, rfl, hc⟩, hb⟩ fun {other} hu => ?_).symm
      obtain ⟨⟨after, heq, _⟩, _⟩ := hu
      exact (List.cons.inj heq).1.symm
    · have hclosed : head.isSectionBegin = true → Closes head rest := by
        intro hb
        exact Classical.not_not.1 fun hc => ho ⟨hb, hc⟩
      have hcons (before : List Tag) (other : Tag) : Unclosed (head :: rest) before other ↔
          ∃ later, before = head :: later ∧ Unclosed rest later other := by
        rw [unclosed_cons_iff, or_iff_right]
        rintro ⟨_, _, hb, hc⟩
        exact ho ⟨hb, hc⟩
      rw [unclosedOf?_cons hclosed, ih]
      exact exists_first_iff_cons hcons

theorem unclosedOf?_eq_none_iff {tags : List Tag} :
    unclosedOf? tags = none ↔ ∀ before tag, ¬ Unclosed tags before tag :=
  eq_none_iff_of_first unclosedOf?_eq_some_iff

end Stencil.Template

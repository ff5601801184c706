import Stencil.Proofs.Template.Sections
import Stencil.Template.Reading

/-!
# What nesting makes of segments

Nesting keeps a stack of the sections that are open, and it fails in two ways only: at a faulty
segment, or at a section end with nothing open. Where it fails and how is what counting finds
(`defect?_of_nest`).

When it succeeds, it has gone through the segments in one of five ways each (`Nests`). Everything else
about the drafts is an induction on that, over the sections that are open and what is in them so far.
Here it is which of the sections are closed (`unclosedIn?_of_nests`). What decides that for a section
that is still open is yet to come, and it is the end that is as deep in what follows as the section is
in the stack (`openSection?`).

Reading is nesting, and closing what nesting gives (`readFrom_cases`).
-/

set_option autoImplicit false

namespace Stencil.Template

open Draft

/-! ## Where nesting fails -/

/-- The tags of segments up to the first fault. -/
def tagsOf : List Segment → List Tag
  | [] => []
  | segment :: rest =>
    match segment.token with
    | .text _ => tagsOf rest
    | .tag tag => tag :: tagsOf rest
    | .fault _ => []

def faultOf? : List Segment → Option SyntaxError
  | [] => none
  | segment :: rest =>
    match segment.token with
    | .fault error => some error
    | _ => faultOf? rest

/-- What is wrong with segments from left to right, with so many sections open at first: a section end
too many, or else a fault. -/
def defect? (depth : Nat) (segments : List Segment) : Option SyntaxError :=
  match partner? depth (tagsOf segments) with
  | some tag => some (.unmatchedSectionEnd tag.name tag.position)
  | none => faultOf? segments

section Tokens

variable {segment : Segment} {rest : List Segment}

theorem tagsOf_cons_of_text {content : List Char} (h : segment.token = .text content) :
    tagsOf (segment :: rest) = tagsOf rest := by
  simp only [tagsOf, h]

theorem tagsOf_cons_of_tag {tag : Tag} (h : segment.token = .tag tag) :
    tagsOf (segment :: rest) = tag :: tagsOf rest := by
  simp only [tagsOf, h]

theorem faultOf?_cons_of_tag {tag : Tag} (h : segment.token = .tag tag) :
    faultOf? (segment :: rest) = faultOf? rest := by
  simp only [faultOf?, h]

theorem defect?_cons_of_text {depth : Nat} {content : List Char}
    (h : segment.token = .text content) : defect? depth (segment :: rest) = defect? depth rest := by
  simp only [defect?, tagsOf, faultOf?, h]

theorem defect?_cons_of_fault {depth : Nat} {error : SyntaxError}
    (h : segment.token = .fault error) : defect? depth (segment :: rest) = some error := by
  simp only [defect?, tagsOf, faultOf?, h, partner?]

theorem defect?_cons_of_tag {depth after : Nat} {tag : Tag} (h : segment.token = .tag tag)
    (hp : partner? depth (tag :: tagsOf rest) = partner? after (tagsOf rest)) :
    defect? depth (segment :: rest) = defect? after rest := by
  rw [defect?, defect?, tagsOf_cons_of_tag h, hp, faultOf?_cons_of_tag h]

end Tokens

section Steps

variable {openLevels outer : List Level} {level : Level} {body : List Draft} {segment : Segment}
  {rest : List Segment} {tag : Tag}

theorem nest_cons_of_fault {error : SyntaxError} (h : segment.token = .fault error) :
    nest openLevels body (segment :: rest) = .error (segment, error) := by
  simp only [nest, h]

theorem nest_cons_of_text {content : List Char} (h : segment.token = .text content) :
    nest openLevels body (segment :: rest) =
      nest openLevels (.leaf (.text (String.ofList content) segment.start) :: body) rest := by
  simp only [nest, h]

theorem nest_cons_of_begin (h : segment.token = .tag tag) (hb : tag.isSectionBegin = true) :
    nest openLevels body (segment :: rest) = nest (⟨tag, body⟩ :: openLevels) [] rest := by
  simp only [nest, h, hb, if_true]

theorem nest_cons_of_other (h : segment.token = .tag tag) (hb : tag.isSectionBegin = false)
    (he : tag.isSectionEnd = false) :
    nest openLevels body (segment :: rest) = nest openLevels (.leaf (.tag tag) :: body) rest := by
  simp only [nest, h, hb, he, Bool.false_eq_true, if_false]

theorem nest_nil_cons_of_end (h : segment.token = .tag tag) (he : tag.isSectionEnd = true) :
    nest [] body (segment :: rest) =
      .error (segment, .unmatchedSectionEnd tag.name tag.position) := by
  simp only [nest, h, isSectionBegin_of_isSectionEnd he, he, Bool.false_eq_true, if_false, if_true]

theorem nest_cons_of_end (h : segment.token = .tag tag) (he : tag.isSectionEnd = true) :
    nest (level :: outer) body (segment :: rest) =
      nest outer (.block level.opening body.reverse (some tag) :: level.earlier) rest := by
  simp only [nest, h, isSectionBegin_of_isSectionEnd he, he, Bool.false_eq_true, if_false, if_true]

end Steps

/-- Nesting fails as counting says, and only then. -/
theorem defect?_of_nest (openLevels : List Level) (body : List Draft) (segments : List Segment) :
    defect? openLevels.length segments =
      match nest openLevels body segments with
      | .ok _ => none
      | .error (_, error) => some error := by
  induction segments generalizing openLevels body with
  | nil => rfl
  | cons segment rest ih =>
    cases ht : segment.token with
    | fault error => rw [defect?_cons_of_fault ht, nest_cons_of_fault ht]
    | text content =>
      rw [defect?_cons_of_text ht, nest_cons_of_text ht]
      exact ih openLevels _
    | tag tag =>
      -- the number of open sections is the depth that ends are counted from
      cases hb : tag.isSectionBegin with
      | true =>
        rw [defect?_cons_of_tag ht (partner?_cons_of_begin hb), nest_cons_of_begin ht hb]
        exact ih (⟨tag, body⟩ :: openLevels) []
      | false =>
        cases he : tag.isSectionEnd with
        | false =>
          rw [defect?_cons_of_tag ht (partner?_cons_of_other hb he), nest_cons_of_other ht hb he]
          exact ih openLevels _
        | true =>
          cases openLevels with
          | nil =>
            rw [nest_nil_cons_of_end ht he, List.length_nil, defect?, tagsOf_cons_of_tag ht,
              partner?_zero_cons_of_end he]
          | cons level outer =>
            rw [List.length_cons, defect?_cons_of_tag ht (partner?_succ_cons_of_end he),
              nest_cons_of_end ht he]
            exact ih outer _

/-- Nesting fails at a faulty segment, or at a section end. -/
theorem mem_of_nest_error {openLevels : List Level} {body : List Draft}
    {segments : List Segment} {stop : Segment} {error : SyntaxError}
    (h : nest openLevels body segments = .error (stop, error)) :
    stop ∈ segments ∧ (stop.token = .fault error ∨
      ∃ tag : Tag, error = .unmatchedSectionEnd tag.name tag.position) := by
  induction segments generalizing openLevels body with
  | nil => cases h
  | cons segment rest ih =>
    cases ht : segment.token with
    | fault other =>
      rw [nest_cons_of_fault ht] at h
      cases h
      exact ⟨List.mem_cons_self, .inl ht⟩
    | text content =>
      rw [nest_cons_of_text ht] at h
      exact (ih h).imp_left (List.mem_cons_of_mem _)
    | tag tag =>
      cases hb : tag.isSectionBegin with
      | true =>
        rw [nest_cons_of_begin ht hb] at h
        exact (ih h).imp_left (List.mem_cons_of_mem _)
      | false =>
        cases he : tag.isSectionEnd with
        | false =>
          rw [nest_cons_of_other ht hb he] at h
          exact (ih h).imp_left (List.mem_cons_of_mem _)
        | true =>
          cases openLevels with
          | nil =>
            rw [nest_nil_cons_of_end ht he] at h
            cases h
            exact ⟨List.mem_cons_self, .inr ⟨tag, rfl⟩⟩
          | cons level outer =>
            rw [nest_cons_of_end ht he] at h
            exact (ih h).imp_left (List.mem_cons_of_mem _)

/-! ## How nesting succeeds -/

/-- Over these open sections, and with this body in the innermost of them, the segments are nested into
these drafts. -/
inductive Nests : List Level → List Draft → List Segment → List Draft → Prop
  | done {openLevels : List Level} {body : List Draft} :
    Nests openLevels body [] (abandon openLevels body)
  | text {openLevels : List Level} {body drafts : List Draft} {segment : Segment}
    {rest : List Segment} {content : List Char} (ht : segment.token = .text content)
    (hn : Nests openLevels (.leaf (.text (String.ofList content) segment.start) :: body) rest
      drafts) : Nests openLevels body (segment :: rest) drafts
  | leaf {openLevels : List Level} {body drafts : List Draft} {segment : Segment}
    {rest : List Segment} {tag : Tag} (ht : segment.token = .tag tag)
    (hb : tag.isSectionBegin = false) (he : tag.isSectionEnd = false)
    (hn : Nests openLevels (.leaf (.tag tag) :: body) rest drafts) :
    Nests openLevels body (segment :: rest) drafts
  | opened {openLevels : List Level} {body drafts : List Draft} {segment : Segment}
    {rest : List Segment} {tag : Tag} (ht : segment.token = .tag tag)
    (hb : tag.isSectionBegin = true) (hn : Nests (⟨tag, body⟩ :: openLevels) [] rest drafts) :
    Nests openLevels body (segment :: rest) drafts
  | closed {level : Level} {outer : List Level} {body drafts : List Draft} {segment : Segment}
    {rest : List Segment} {tag : Tag} (ht : segment.token = .tag tag)
    (he : tag.isSectionEnd = true)
    (hn : Nests outer (.block level.opening body.reverse (some tag) :: level.earlier) rest drafts) :
    Nests (level :: outer) body (segment :: rest) drafts

theorem nests_of_nest {openLevels : List Level} {body drafts : List Draft} {segments : List Segment}
    (h : nest openLevels body segments = .ok drafts) : Nests openLevels body segments drafts := by
  induction segments generalizing openLevels body with
  | nil =>
    cases h
    exact .done
  | cons segment rest ih =>
    cases ht : segment.token with
    | fault error =>
      rw [nest_cons_of_fault ht] at h
      cases h
    | text content =>
      rw [nest_cons_of_text ht] at h
      exact .text ht (ih h)
    | tag tag =>
      cases hb : tag.isSectionBegin with
      | true =>
        rw [nest_cons_of_begin ht hb] at h
        exact .opened ht hb (ih h)
      | false =>
        cases he : tag.isSectionEnd with
        | false =>
          rw [nest_cons_of_other ht hb he] at h
          exact .leaf ht hb he (ih h)
        | true =>
          cases openLevels with
          | nil =>
            rw [nest_nil_cons_of_end ht he] at h
            cases h
          | cons level outer =>
            rw [nest_cons_of_end ht he] at h
            exact .closed ht he (ih h)

/-! ## Sections that are left open -/

theorem unclosedIn?_append (drafts others : List Draft) :
    unclosedIn? (drafts ++ others) = (unclosedIn? drafts).or (unclosedIn? others) := by
  induction drafts with
  | nil => rfl
  | cons draft rest ih =>
    rw [List.cons_append, unclosedIn?, unclosedIn?]
    cases draft.unclosed? with
    | none => exact ih
    | some tag => rfl

theorem unclosedIn?_leaf (label : Label) : unclosedIn? [.leaf label] = none := rfl

/-- The section, if it has not been closed by this tag under its name. -/
def openSection? (opening : Tag) (closing : Option Tag) : Option Tag :=
  if isClosed opening closing then none else some opening

theorem unclosedIn?_block (opening : Tag) (body : List Draft) (closing : Option Tag) :
    unclosedIn? [.block opening body closing] =
      (openSection? opening closing).or (unclosedIn? body) := by
  simp only [unclosedIn?, unclosed?, openSection?]
  cases isClosed opening closing with
  | true => cases unclosedIn? body <;> rfl
  | false => rfl

theorem unclosedOf?_cons_of_begin {tag : Tag} {tags : List Tag} (hb : tag.isSectionBegin = true) :
    unclosedOf? (tag :: tags) = (openSection? tag (partner? 0 tags)).or (unclosedOf? tags) := by
  rw [unclosedOf?, hb, openSection?]
  cases isClosed tag (partner? 0 tags) <;> rfl

theorem unclosedOf?_cons_of_other {tag : Tag} {tags : List Tag} (hb : tag.isSectionBegin = false) :
    unclosedOf? (tag :: tags) = unclosedOf? tags := by
  rw [unclosedOf?, hb]
  rfl

/-- The first section that is not closed among those that are open, with so many more open inside of
them, and the drafts before each, when these tags are what follows. -/
def unclosedAround? (depth : Nat) (tags : List Tag) : List Level → Option Tag
  | [] => none
  | level :: outer =>
    ((unclosedAround? (depth + 1) tags outer).or (unclosedIn? level.earlier.reverse)).or
      (openSection? level.opening (partner? depth tags))

/-- A tag that changes the depth changes what closes the open sections, and nothing else about them. -/
theorem unclosedAround?_congr {depth other : Nat} {tags others : List Tag}
    (h : ∀ more, partner? (depth + more) tags = partner? (other + more) others)
    (levels : List Level) :
    unclosedAround? depth tags levels = unclosedAround? other others levels := by
  induction levels generalizing depth other with
  | nil => rfl
  | cons level outer ih =>
    have hnext (more : Nat) : partner? (depth + 1 + more) tags = partner? (other + 1 + more) others := by
      rw [Nat.add_assoc, Nat.add_assoc]
      exact h (1 + more)
    rw [unclosedAround?, unclosedAround?, ih hnext, show partner? depth tags = _ from h 0]
    rfl

theorem unclosedIn?_abandon (openLevels : List Level) (body : List Draft) :
    unclosedIn? (abandon openLevels body) =
      (unclosedAround? 0 [] openLevels).or (unclosedIn? body.reverse) := by
  induction openLevels generalizing body with
  | nil => rfl
  | cons level outer ih =>
    have hone : unclosedAround? 1 [] outer = unclosedAround? 0 [] outer :=
      unclosedAround?_congr (fun _ => by rw [partner?_nil, partner?_nil]) outer
    rw [abandon, ih, List.reverse_cons, unclosedIn?_append, unclosedIn?_block, unclosedAround?,
      Nat.zero_add, hone]
    simp only [Option.or_assoc]
    rfl

/-- **Nesting leaves a section unclosed where counting does.** The first one is among those around what
has been nested, in that, or among what follows. -/
theorem unclosedIn?_of_nests {openLevels : List Level} {body drafts : List Draft}
    {segments : List Segment} (h : Nests openLevels body segments drafts) :
    unclosedIn? drafts =
      ((unclosedAround? 0 (tagsOf segments) openLevels).or (unclosedIn? body.reverse)).or
        (unclosedOf? (tagsOf segments)) := by
  induction h with
  | @done openLevels body =>
    rw [unclosedIn?_abandon]
    exact Option.or_none.symm
  | text ht _ ih =>
    rw [ih, tagsOf_cons_of_text ht, List.reverse_cons, unclosedIn?_append, unclosedIn?_leaf,
      Option.or_none]
  | @leaf openLevels body drafts segment rest tag ht hb he _ ih =>
    have hsame : unclosedAround? 0 (tag :: tagsOf rest) openLevels =
        unclosedAround? 0 (tagsOf rest) openLevels :=
      unclosedAround?_congr (fun _ => partner?_cons_of_other hb he) openLevels
    rw [ih, tagsOf_cons_of_tag ht, List.reverse_cons, unclosedIn?_append, unclosedIn?_leaf,
      Option.or_none, unclosedOf?_cons_of_other hb, hsame]
  | @opened openLevels body drafts segment rest tag ht hb _ ih =>
    -- the open sections wait one deeper for their ends, and the new one is the innermost
    have hdeeper : unclosedAround? 0 (tag :: tagsOf rest) openLevels =
        unclosedAround? 1 (tagsOf rest) openLevels := by
      refine unclosedAround?_congr (fun more => ?_) openLevels
      rw [partner?_cons_of_begin hb, Nat.zero_add, Nat.add_comm]
    rw [ih, tagsOf_cons_of_tag ht, unclosedOf?_cons_of_begin hb, hdeeper, unclosedAround?]
    simp only [Option.or_assoc]
    rfl
  | @closed level outer body drafts segment rest tag ht he _ ih =>
    -- this is the end that the innermost section waited for
    have hshallower : unclosedAround? 1 (tag :: tagsOf rest) outer =
        unclosedAround? 0 (tagsOf rest) outer := by
      refine unclosedAround?_congr (fun more => ?_) outer
      rw [Nat.add_comm, partner?_succ_cons_of_end he, Nat.zero_add]
    rw [ih, tagsOf_cons_of_tag ht, unclosedOf?_cons_of_other (isSectionBegin_of_isSectionEnd he),
      List.reverse_cons, unclosedIn?_append, unclosedIn?_block, unclosedAround?, Nat.zero_add,
      hshallower, partner?_zero_cons_of_end he]
    simp only [Option.or_assoc]

/-! ## Where reading ends -/

theorem close_cases (source : String) (drafts : List Draft) :
    (unclosedIn? drafts = none ∧ close source drafts = .ok ⟨toNodes drafts, source⟩) ∨
      ∃ tag : Tag, close source drafts = .error (.unclosedSection tag.name tag.position) := by
  unfold close
  cases hu : unclosedIn? drafts with
  | none => exact .inl ⟨rfl, rfl⟩
  | some tag => exact .inr ⟨tag, rfl⟩

/-- Reading ends where nesting fails, before that tag or fault, or else at the end of the source. -/
theorem readFrom_cases (pair : Delimiters) (source : String) :
    (∃ stop error, nest [] [] (segments pair source.toList) = .error (stop, error) ∧
      (readFrom pair source).delimiters = stop.delimiters ∧
      (readFrom pair source).outcome = .error error) ∨
    ∃ drafts, nest [] [] (segments pair source.toList) = .ok drafts ∧
      (readFrom pair source).delimiters = delimitersAfter pair (segments pair source.toList) ∧
      (readFrom pair source).outcome = close source drafts := by
  simp only [readFrom]
  cases hn : nest [] [] (segments pair source.toList) with
  | error failure => exact .inl ⟨failure.1, failure.2, rfl, rfl, rfl⟩
  | ok drafts => exact .inr ⟨drafts, rfl, rfl, rfl⟩

end Stencil.Template

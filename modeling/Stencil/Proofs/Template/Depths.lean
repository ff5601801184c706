import Stencil.Proofs.Template.Coverage
import Stencil.Proofs.Template.Sections

/-!
# How deep a node is

Documents are trees of sections. That only sections have children, and that no section end is left over, is
decided by nesting: an end goes with the section that it ends, and whatever is no section begin is a leaf
(`sectioned_of_nests`).

In such a tree, marks count the sections that are open: up where one begins, and down where it is closed.
All that a forest adds to the count is taken back at its end (`height_marksAll`), and what is left when a
node is reached are the sections that it is in (`exists_marks_of_preorderAll`). The tags of the source count
the same up to there (`exists_segment_of_preorderAll`).
-/

set_option autoImplicit false

namespace Stencil

/-! ## Trees of sections -/

/-- Only sections have children, and no section end is part of the tree. -/
inductive Node.Sectioned : Node → Prop
  | text {content : String} {position : Int} : Node.Sectioned ⟨.text content position, []⟩
  | leaf {tag : Tag} (hb : tag.isSectionBegin = false) (he : tag.isSectionEnd = false) :
    Node.Sectioned ⟨.tag tag, []⟩
  | block {tag : Tag} {children : List Node} (hb : tag.isSectionBegin = true)
    (hc : ∀ child ∈ children, Node.Sectioned child) : Node.Sectioned ⟨.tag tag, children⟩

theorem Node.Sectioned.isSectionBegin {node : Node} (h : node.Sectioned)
    (hc : node.children ≠ []) : node.isSectionBegin = true := by
  cases h with
  | text | leaf => exact absurd rfl hc
  | block hb _ => exact hb

theorem Node.Sectioned.children {node : Node} (h : node.Sectioned) :
    ∀ child ∈ node.children, child.Sectioned := by
  cases h with
  | text | leaf => exact List.forall_mem_nil _
  | block _ hc => exact hc

namespace Template

open Draft

theorem mem_toNodes {drafts : List Draft} {node : Node} :
    node ∈ toNodes drafts ↔ ∃ draft ∈ drafts, draft.toNode = node := by
  induction drafts with
  | nil => simp [toNodes]
  | cons draft rest ih => simp [toNodes, ih, eq_comm (a := node)]

theorem sectioned_block {opening : Tag} {body : List Draft} {closing : Option Tag}
    (hb : opening.isSectionBegin = true) (hbody : ∀ draft ∈ body, draft.toNode.Sectioned) :
    (Draft.block opening body.reverse closing).toNode.Sectioned := by
  rw [toNode]
  apply Node.Sectioned.block hb
  intro child hm
  obtain ⟨draft, hd, rfl⟩ := mem_toNodes.1 hm
  exact hbody draft (List.mem_reverse.1 hd)

/-- The level is that of a section, and so far its drafts are trees of sections. -/
structure SectionedLevel (level : Level) : Prop where
  begins : level.opening.isSectionBegin = true
  earlier : ∀ draft ∈ level.earlier, draft.toNode.Sectioned

theorem sectioned_abandon {openLevels : List Level} {body : List Draft}
    (ho : ∀ level ∈ openLevels, SectionedLevel level)
    (hb : ∀ draft ∈ body, draft.toNode.Sectioned) :
    ∀ draft ∈ abandon openLevels body, draft.toNode.Sectioned := by
  induction openLevels generalizing body with
  | nil =>
    intro draft hd
    exact hb draft (List.mem_reverse.1 hd)
  | cons level outer ih =>
    obtain ⟨hlevel, houter⟩ := List.forall_mem_cons.1 ho
    rw [abandon]
    apply ih houter
    exact List.forall_mem_cons.2 ⟨sectioned_block hlevel.begins hb, hlevel.earlier⟩

/-- **What segments are nested into are trees of sections.** -/
theorem sectioned_of_nests {openLevels : List Level} {body drafts : List Draft}
    {segments : List Segment} (h : Nests openLevels body segments drafts)
    (ho : ∀ level ∈ openLevels, SectionedLevel level)
    (hb : ∀ draft ∈ body, draft.toNode.Sectioned) :
    ∀ draft ∈ drafts, draft.toNode.Sectioned := by
  induction h with
  | done => exact sectioned_abandon ho hb
  | text _ _ ih => exact ih ho (List.forall_mem_cons.2 ⟨.text, hb⟩)
  | leaf _ hbegin hend _ ih => exact ih ho (List.forall_mem_cons.2 ⟨.leaf hbegin hend, hb⟩)
  | opened _ hbegin _ ih =>
    exact ih (List.forall_mem_cons.2 ⟨⟨hbegin, hb⟩, ho⟩) (List.forall_mem_nil _)
  | closed _ _ _ ih =>
    obtain ⟨hlevel, houter⟩ := List.forall_mem_cons.1 ho
    apply ih houter
    exact List.forall_mem_cons.2 ⟨sectioned_block hlevel.begins hb, hlevel.earlier⟩

theorem sectioned_of_readFrom {pair : Delimiters} {source : String} {document : Document}
    (h : (readFrom pair source).outcome = .ok document) :
    ∀ node ∈ document.nodes, node.Sectioned := by
  obtain ⟨drafts, hn, _, rfl⟩ := exists_nests_of_readFrom h
  intro node hm
  obtain ⟨draft, hd, rfl⟩ := mem_toNodes.1 hm
  exact sectioned_of_nests hn (List.forall_mem_nil _) (List.forall_mem_nil _) draft hd

/-! ## Sections that are open at a node -/

/-- How many more sections are open after the mark than before it. -/
def Mark.change : Mark → Int
  | .node (.tag tag) => if tag.isSectionBegin then 1 else 0
  | .node _ => 0
  | .close _ => -1

/-- How many more sections are open after the marks than before them. -/
def height : List Mark → Int
  | [] => 0
  | mark :: marks => mark.change + height marks

theorem height_append (marks others : List Mark) :
    height (marks ++ others) = height marks + height others := by
  induction marks with
  | nil => rw [List.nil_append, height, Int.zero_add]
  | cons mark marks ih => rw [List.cons_append, height, height, ih, Int.add_assoc]

theorem height_closeMarks (label : Label) :
    (Mark.node label).change + height (closeMarks label) = 0 := by
  cases label with
  | root | text => rfl
  | tag tag => cases hb : tag.isSectionBegin <;> simp [Mark.change, closeMarks, hb, height]

mutual

theorem height_marks : (node : Node) → height (marks node) = 0
  | ⟨label, children⟩ => by
    rw [marks, height, height_append, height_marksAll children, Int.zero_add]
    exact height_closeMarks label

/-- After a forest as many sections are open as before it. -/
theorem height_marksAll : (nodes : List Node) → height (marksAll nodes) = 0
  | [] => rfl
  | node :: rest => by
    rw [marksAll, height_append, height_marks node, height_marksAll rest]
    rfl

end

mutual

theorem exists_marks_of_preorder {visited : Node × Int} (depth : Int) : (node : Node) →
    node.Sectioned → visited ∈ node.preorder depth →
    visited.1.Sectioned ∧ ∃ before after, marks node = before ++ marks visited.1 ++ after ∧
      visited.2 = depth + height before
  | ⟨label, children⟩, hs, hm => by
    rw [Node.preorder] at hm
    rcases List.mem_cons.1 hm with rfl | hbelow
    · exact ⟨hs, [], [], by simp, by simp [height]⟩
    · cases hs with
      | text | leaf => exact absurd hbelow List.not_mem_nil
      | @block tag _ hb hc =>
        obtain ⟨hv, before, after, heq, hdepth⟩ :=
          exists_marks_of_preorderAll (depth + 1) children hc hbelow
        refine ⟨hv, .node (.tag tag) :: before, after ++ closeMarks (.tag tag), ?_, ?_⟩
        · rw [marks, heq]
          simp only [List.cons_append, List.append_assoc]
        · rw [hdepth, height, Mark.change, if_pos hb, Int.add_assoc]

/-- **The depth of a node is the number of the sections that are open before it.** Its marks are a part of
those of the forest. -/
theorem exists_marks_of_preorderAll {visited : Node × Int} (depth : Int) : (nodes : List Node) →
    (∀ node ∈ nodes, node.Sectioned) → visited ∈ Node.preorderAll depth nodes →
    visited.1.Sectioned ∧ ∃ before after, marksAll nodes = before ++ marks visited.1 ++ after ∧
      visited.2 = depth + height before
  | [], _, hm => absurd hm List.not_mem_nil
  | node :: rest, hs, hm => by
    obtain ⟨hnode, hrest⟩ := List.forall_mem_cons.1 hs
    rw [Node.preorderAll] at hm
    -- in the first tree, or in the others, and then all that the first adds to the count has been taken
    -- back
    rcases List.mem_append.1 hm with hm | hm
    · obtain ⟨hv, before, after, heq, hdepth⟩ := exists_marks_of_preorder depth node hnode hm
      refine ⟨hv, before, after ++ marksAll rest, ?_, hdepth⟩
      rw [marksAll, heq, List.append_assoc]
    · obtain ⟨hv, before, after, heq, hdepth⟩ :=
        exists_marks_of_preorderAll depth rest hrest hm
      refine ⟨hv, marks node ++ before, after, ?_, ?_⟩
      · rw [marksAll, heq]
        simp only [List.append_assoc]
      · rw [hdepth, height_append, height_marks node, Int.zero_add]

end

/-! ## What marks are, and what segments are -/

theorem exists_of_forall₂_append {before rest : List Mark} {mark : Mark} {segments : List Segment}
    {relation : Mark → Segment → Prop}
    (h : List.Forall₂ relation (before ++ mark :: rest) segments) :
    ∃ earlier segment later, segments = earlier ++ segment :: later ∧
      List.Forall₂ relation before earlier ∧ relation mark segment := by
  induction before generalizing segments with
  | nil =>
    obtain ⟨segment, later, hr, _, rfl⟩ := List.forall₂_cons_left_iff.1 h
    exact ⟨[], segment, later, rfl, .nil, hr⟩
  | cons first before ih =>
    obtain ⟨segment, others, hr, hrest, rfl⟩ := List.forall₂_cons_left_iff.1 h
    obtain ⟨earlier, found, later, rfl, hbefore, hfound⟩ := ih hrest
    exact ⟨segment :: earlier, found, later, rfl, .cons hr hbefore, hfound⟩

theorem faultOf?_of_tells {marks : List Mark} {segments : List Segment}
    (h : List.Forall₂ Tells marks segments) : faultOf? segments = none := by
  induction h with
  | nil => rfl
  | cons ht _ ih =>
    cases ht with
    | text ht | tag ht | closing ht => simp only [faultOf?, ht, ih]

theorem tagsOf_append {segments : List Segment} (h : faultOf? segments = none)
    (more : List Segment) : tagsOf (segments ++ more) = tagsOf segments ++ tagsOf more := by
  induction segments with
  | nil => rfl
  | cons segment rest ih =>
    rw [List.cons_append]
    cases ht : segment.token with
    | text content =>
      simp only [faultOf?, ht] at h
      rw [tagsOf_cons_of_text ht, tagsOf_cons_of_text ht, ih h]
    | tag tag =>
      simp only [faultOf?, ht] at h
      rw [tagsOf_cons_of_tag ht, tagsOf_cons_of_tag ht, ih h, List.cons_append]
    | fault error => simp only [faultOf?, ht, reduceCtorEq] at h

/-- The marks count as the tags of the segments do. -/
theorem height_of_tells {marks : List Mark} {segments : List Segment}
    (h : List.Forall₂ Tells marks segments)
    (he : ∀ tag, Mark.node (.tag tag) ∈ marks → tag.isSectionEnd = false) :
    height marks = (begun (tagsOf segments) : Int) - ended (tagsOf segments) := by
  induction h with
  | nil => rfl
  | @cons mark segment marks segments ht _ ih =>
    have ih := ih fun tag hm => he tag (List.mem_cons_of_mem _ hm)
    rw [height, ih]
    cases ht with
    | text ht =>
      rw [tagsOf_cons_of_text ht]
      simp [Mark.change]
    | @tag _ tag ht =>
      rw [tagsOf_cons_of_tag ht, begun_cons, ended_cons, he tag List.mem_cons_self, Mark.change]
      cases tag.isSectionBegin with
      | true =>
        simp
        omega
      | false => simp
    | closing ht hend =>
      rw [tagsOf_cons_of_tag ht, begun_cons, ended_cons, hend, isSectionBegin_of_isSectionEnd hend,
        Mark.change]
      simp
      omega

theorem exists_of_mem_tagsOf {segments : List Segment} {tag : Tag} (h : tag ∈ tagsOf segments) :
    ∃ segment ∈ segments, segment.token = .tag tag := by
  induction segments with
  | nil => exact absurd h List.not_mem_nil
  | cons segment rest ih =>
    cases ht : segment.token with
    | text content =>
      rw [tagsOf_cons_of_text ht] at h
      obtain ⟨found, hm, hf⟩ := ih h
      exact ⟨found, List.mem_cons_of_mem _ hm, hf⟩
    | tag other =>
      rw [tagsOf_cons_of_tag ht] at h
      rcases List.mem_cons.1 h with rfl | h
      · exact ⟨segment, List.mem_cons_self, ht⟩
      · obtain ⟨found, hm, hf⟩ := ih h
        exact ⟨found, List.mem_cons_of_mem _ hm, hf⟩
    | fault error =>
      simp only [tagsOf, ht] at h
      exact absurd h List.not_mem_nil

theorem not_isSectionEnd_of_mem {nodes : List Node} (hs : ∀ node ∈ nodes, node.Sectioned)
    {tag : Tag} (h : Mark.node (.tag tag) ∈ marksAll nodes) : tag.isSectionEnd = false := by
  have hlabel : Label.tag tag ∈ (marksAll nodes).filterMap Mark.label? :=
    List.mem_filterMap.2 ⟨_, h, rfl⟩
  rw [labels_marksAll nodes 0] at hlabel
  obtain ⟨⟨⟨label, children⟩, depth⟩, hv, rfl⟩ := List.mem_map.1 hlabel
  cases (exists_marks_of_preorderAll 0 nodes hs hv).1 with
  | leaf _ he => exact he
  | block hb _ => exact isSectionEnd_of_isSectionBegin hb

theorem marks_eq (node : Node) :
    marks node = .node node.label :: (marksAll node.children ++ closeMarks node.label) := by
  cases node
  rw [marks]

/-- Each node has a segment, and its depth is what the tags before this segment count up to. -/
theorem exists_segment_of_preorderAll {nodes : List Node} {segments : List Segment}
    {visited : Node × Int} (hs : ∀ node ∈ nodes, node.Sectioned)
    (ht : List.Forall₂ Tells (marksAll nodes) segments) (hv : visited ∈ Node.preorderAll 0 nodes) :
    ∃ earlier segment later, segments = earlier ++ segment :: later ∧ faultOf? earlier = none ∧
      Tells (.node visited.1.label) segment ∧
      visited.2 = (begun (tagsOf earlier) : Int) - ended (tagsOf earlier) := by
  obtain ⟨_, before, after, hmarks, hdepth⟩ := exists_marks_of_preorderAll 0 nodes hs hv
  have hends : ∀ tag, Mark.node (.tag tag) ∈ before → tag.isSectionEnd = false := by
    intro tag hm
    apply not_isSectionEnd_of_mem hs
    rw [hmarks, List.append_assoc]
    exact List.mem_append_left _ hm
  rw [hmarks, marks_eq, List.append_assoc, List.cons_append] at ht
  obtain ⟨earlier, segment, later, rfl, hbefore, hsegment⟩ := exists_of_forall₂_append ht
  refine ⟨earlier, segment, later, rfl, faultOf?_of_tells hbefore, hsegment, ?_⟩
  rw [hdepth, Int.zero_add, height_of_tells hbefore hends]

end Template

end Stencil

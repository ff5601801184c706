import Stencil.Proofs.Template.Defects
import Stencil.Proofs.Template.Depths
import Stencil.Proofs.Template.Preorder
import Stencil.Proofs.Template.Writing

/-!
# The shape of a document

Nothing checks the shape of a document, it comes of how documents are read. Segments lie one after the
other and none of them is empty, so what has a node stands further to the right than all that comes before it
in pre-order (`positions_sublist`). A text goes on until a tag begins or the source ends, so no other text
follows it (`Laid.apart`), and in a tree of sections two texts in a row would be just that
(`spaced_of_apart`).

`shape_of_readFrom` says all that the other parts of a program can rely on in a document that was read.
-/

set_option autoImplicit false

namespace Stencil

open Text

namespace Template

/-! ## Places -/

theorem Laid.le_start {pair : Delimiters} {offset : Nat} {text : List Char}
    {segments : List Segment} (h : Laid pair offset text segments) :
    ∀ segment ∈ segments, offset ≤ segment.start := by
  induction h with
  | nil => exact List.forall_mem_nil _
  | text _ _ _ ih | tag _ _ _ ih =>
    refine List.forall_mem_cons.2 ⟨Nat.le_refl _, fun segment hm => ?_⟩
    exact Nat.le_trans (Nat.le_add_right _ _) (ih segment hm)
  | fault _ => exact List.forall_mem_singleton.2 (Nat.le_refl _)

/-- Each segment starts before those that come after it. -/
theorem Laid.sorted {pair : Delimiters} {offset : Nat} {text : List Char} {segments : List Segment}
    (h : Laid pair offset text segments) :
    segments.Pairwise fun segment later => segment.start < later.start := by
  induction h with
  | nil => exact .nil
  | text hne _ hl ih =>
    refine .cons (fun later hm => ?_) ih
    -- segments are not empty, so the rest of the layout starts further on
    have hle := hl.le_start later hm
    have hpos := List.length_pos_iff.2 hne
    dsimp only
    omega
  | tag hb _ hl ih =>
    refine .cons (fun later hm => ?_) ih
    have hle := hl.le_start later hm
    have hpos := List.length_pos_iff.2 hb.written_ne_nil
    dsimp only
    omega
  | fault _ => exact List.pairwise_singleton _ _

theorem position_of_sound {source : List Char} {segment : Segment} {tag : Tag}
    (hs : Sound source segment) (ht : segment.token = .tag tag) : tag.position = segment.start := by
  unfold Sound at hs
  rw [ht] at hs
  obtain ⟨bounded, _, _, rfl⟩ := hs
  exact position_classify _ _ _

theorem position_of_tells {source : List Char} {segment : Segment} {node : Node}
    (h : Tells (.node node.label) segment) (hs : Sound source segment) :
    node.position = segment.start := by
  obtain ⟨label, children⟩ := node
  cases h with
  | text => rfl
  | tag ht => exact position_of_sound hs ht

/-- What has nodes is in the order of the source. -/
theorem positions_sublist {source : List Char} {marks : List Mark} {segments : List Segment}
    (h : List.Forall₂ Tells marks segments) (hs : ∀ segment ∈ segments, Sound source segment) :
    ((marks.filterMap Mark.label?).map fun label => (⟨label, []⟩ : Node).position).Sublist
      (segments.map fun segment => (segment.start : Int)) := by
  induction h with
  | nil => exact .slnil
  | @cons mark segment marks segments ht _ ih =>
    obtain ⟨hsegment, hrest⟩ := List.forall_mem_cons.1 hs
    cases mark with
    | close opening => exact .cons _ (ih hrest)
    | node label =>
      have hcons : (.node label :: marks : List Mark).filterMap Mark.label? =
          label :: marks.filterMap Mark.label? := List.filterMap_cons_some rfl
      rw [hcons, List.map_cons, List.map_cons, @position_of_tells _ _ ⟨label, []⟩ ht hsegment]
      exact .cons_cons _ (ih hrest)

/-- The tags that stand before this place. -/
def tagsBefore (position : Int) (tags : List Tag) : List Tag :=
  tags.filter (·.position < position)

theorem tagsBefore_start {source : List Char} {earlier later : List Segment} {segment : Segment}
    (hf : faultOf? earlier = none)
    (hs : ∀ other ∈ earlier ++ segment :: later, Sound source other)
    (ho : (earlier ++ segment :: later).Pairwise fun segment later => segment.start < later.start) :
    tagsBefore segment.start (tagsOf (earlier ++ segment :: later)) = tagsOf earlier := by
  obtain ⟨_, hlater, hearlier⟩ := List.pairwise_append.1 ho
  have hbefore : ∀ tag ∈ tagsOf earlier, tag.position < segment.start := by
    intro tag hm
    obtain ⟨found, hm, ht⟩ := exists_of_mem_tagsOf hm
    have hlt := hearlier found hm segment List.mem_cons_self
    rw [position_of_sound (hs found (List.mem_append_left _ hm)) ht]
    omega
  -- where a tag stands tells whether its segment is among the earlier ones
  have hafter : ∀ tag ∈ tagsOf (segment :: later), ¬ tag.position < segment.start := by
    intro tag hm
    obtain ⟨found, hm, ht⟩ := exists_of_mem_tagsOf hm
    have hle : segment.start ≤ found.start := by
      rcases List.mem_cons.1 hm with rfl | hm
      · exact Nat.le_refl _
      · exact Nat.le_of_lt (List.rel_of_pairwise_cons hlater hm)
    rw [position_of_sound (hs found (List.mem_append_right _ hm)) ht]
    omega
  rw [tagsBefore, tagsOf_append hf, List.filter_append,
    List.filter_eq_self.2 fun tag hm => by simpa using hbefore tag hm,
    List.filter_eq_nil_iff.2 fun tag hm => by simpa using hafter tag hm, List.append_nil]

/-! ## Labels and siblings -/

theorem classify_type_ne (contents : List Char) (triple : Bool) (position : Int) :
    (Tag.classify contents triple position).type ≠ .invalid := by
  unfold Tag.classify
  split
  · nofun
  · split
    · nofun
    · split
      · nofun
      · split
        · nofun
        · next type hsigil =>
          rintro rfl
          unfold TagType.ofSigil? at hsigil
          split at hsigil <;> cases hsigil

/-- The name of a tag is trimmed if what it was read from was. -/
theorem trim_classify {contents : List Char} (h : trim contents = contents) (triple : Bool)
    (position : Int) :
    trim (Tag.classify contents triple position).name.toList =
      (Tag.classify contents triple position).name.toList := by
  unfold Tag.classify
  split
  · rw [String.toList_ofList, h]
  · split
    · rfl
    · split
      · rw [String.toList_ofList, trim_trim]
      · split
        · rw [String.toList_ofList, h]
        · rw [String.toList_ofList, trim_trim]

/-- A text is not empty. A tag is neither invalid nor a section end, and its name is trimmed. There is no
root. -/
def Regular : Label → Prop
  | .root => False
  | .text content _ => content ≠ ""
  | .tag tag => tag.type ≠ .sectionEnd ∧ tag.type ≠ .invalid ∧ trim tag.name.toList = tag.name.toList

theorem regular_of_tells {source : List Char} {segment : Segment} {node : Node}
    (h : Tells (.node node.label) segment) (hs : Sound source segment) (hw : segment.written ≠ [])
    (hn : node.Sectioned) : Regular node.label := by
  obtain ⟨label, children⟩ := node
  unfold Sound at hs
  cases h with
  | text ht =>
    rw [ht] at hs
    intro hempty
    rw [← hs.1] at hempty
    exact hw (by simpa using congrArg String.toList hempty)
  | @tag _ tag ht =>
    rw [ht] at hs
    obtain ⟨bounded, _, _, hbounded⟩ := hs
    -- an end would be the end of some section, and ends have no nodes
    have hend : tag.type ≠ .sectionEnd := by
      intro htype
      cases hn with
      | leaf _ he => simp [Tag.isSectionEnd, htype] at he
      | block hb _ => simp [Tag.isSectionBegin, htype] at hb
    subst hbounded
    exact ⟨hend, classify_type_ne _ _ _, trim_classify (trim_trim _) _ _⟩

def Mark.isText : Mark → Bool
  | .node (.text _ _) => true
  | _ => false

def Segment.isText (segment : Segment) : Bool :=
  match segment.token with
  | .text _ => true
  | _ => false

theorem isText_of_tells {mark : Mark} {segment : Segment} (h : Tells mark segment) :
    mark.isText = segment.isText := by
  cases h with
  | text ht | tag ht | closing ht =>
    rw [Segment.isText, ht]
    rfl

theorem map_isText_of_tells {marks : List Mark} {segments : List Segment}
    (h : List.Forall₂ Tells marks segments) :
    marks.map Mark.isText = segments.map Segment.isText := by
  induction h with
  | nil => rfl
  | cons ht _ ih => rw [List.map_cons, List.map_cons, isText_of_tells ht, ih]

/-- No two in a row are true. -/
def Apart (flags : List Bool) : Prop :=
  flags.IsChain fun flag next => ¬ (flag = true ∧ next = true)

/-- No text follows directly on another one in a source. -/
theorem Laid.apart {pair : Delimiters} {offset : Nat} {text : List Char} {segments : List Segment}
    (h : Laid pair offset text segments) : Apart (segments.map Segment.isText) := by
  induction h with
  | nil => exact .nil
  | @text pair offset content rest segments hne he hl ih =>
    cases segments with
    | nil => exact .singleton _
    | cons segment others =>
      refine List.isChain_cons_cons.2 ⟨fun ⟨_, hnext⟩ => ?_, ih⟩
      -- a text stops where the source ends or a tag begins, so what is behind it is no text
      have htext := not_text_of_endsText he hl
      unfold Segment.isText at hnext
      split at hnext
      · next content ht => exact htext content ht
      · cases hnext
  | @tag pair next offset text bounded segments hb hn hl ih =>
    cases segments with
    | nil => exact .singleton _
    | cons segment others =>
      exact List.isChain_cons_cons.2 ⟨fun ⟨hfirst, _⟩ => Bool.false_ne_true hfirst, ih⟩
  | fault => exact .singleton _

/-- What holds of the marks of siblings holds of the siblings: between two texts in a row there would be no
mark. -/
theorem spaced_of_apart {nodes : List Node} (hs : ∀ node ∈ nodes, node.Sectioned)
    (h : Apart ((marksAll nodes).map Mark.isText)) : Spaced nodes := by
  induction nodes with
  | nil => exact .nil
  | cons node rest ih =>
    obtain ⟨hnode, hrest⟩ := List.forall_mem_cons.1 hs
    have htail : Apart ((marksAll rest).map Mark.isText) := by
      rw [marksAll, List.map_append] at h
      exact List.IsChain.right_of_append h
    cases rest with
    | nil => exact .singleton _
    | cons next others =>
      refine List.isChain_cons_cons.2 ⟨fun ⟨hfirst, hsecond⟩ => ?_, ih hrest htail⟩
      cases hnode with
      | leaf | block => cases hfirst
      | text =>
        cases (List.forall_mem_cons.1 hrest).1 with
        | leaf | block => cases hsecond
        | text => exact (List.isChain_cons_cons.1 h).1 ⟨rfl, rfl⟩

/-! ## Documents -/

/-- A node as it is in a document: only under a section there are others, and among these no text follows
directly on another one. -/
structure WellShaped (node : Node) : Prop where
  label : Regular node.label
  children : node.children ≠ [] → node.isSectionBegin = true
  spaced : Spaced node.children

theorem apart_children {nodes : List Node} {node : Node} {before after : List Mark}
    (h : Apart ((marksAll nodes).map Mark.isText))
    (hm : marksAll nodes = before ++ marks node ++ after) :
    Apart ((marksAll node.children).map Mark.isText) := by
  rw [hm, marks_eq, List.append_assoc, List.cons_append, List.append_assoc] at h
  have hpart : marksAll node.children <:+: before ++ .node node.label ::
      (marksAll node.children ++ (closeMarks node.label ++ after)) :=
    ⟨before ++ [.node node.label], closeMarks node.label ++ after, by simp⟩
  exact List.IsChain.infix h (hpart.map Mark.isText)

/-- **The shape of a document that was read.** Each node is as nodes in documents are, and at the outermost
level, too, no text follows directly on another one. In pre-order the nodes stand one after the other in the
source, and the depth of each is the number of section begins before it less that of section ends. -/
theorem shape_of_readFrom {pair : Delimiters} {source : String} {document : Document}
    (h : (readFrom pair source).outcome = .ok document) :
    (∀ visited ∈ Node.iterate document.nodes, WellShaped visited.1) ∧ Spaced document.nodes ∧
      ((Node.iterate document.nodes).map fun visited => visited.1.position).Pairwise (· < ·) ∧
      ∃ tags, Lexes pair 0 source.toList tags none ∧
        ∀ visited ∈ Node.iterate document.nodes,
          visited.2 = (begun (tagsBefore visited.1.position tags) : Int) -
            ended (tagsBefore visited.1.position tags) := by
  have hl : Laid pair 0 source.toList (segments pair source.toList) :=
    laid_segments ⟨pair, 0, source.toList⟩
  have hlexes : Lexes pair 0 source.toList (tagsOf (segments pair source.toList))
      (faultOf? (segments pair source.toList)) := lexes_segments ⟨pair, 0, source.toList⟩
  have hsectioned := sectioned_of_readFrom h
  have htells := tells_of_readFrom h
  have hsound := hl.sound rfl
  have hapart : Apart ((marksAll document.nodes).map Mark.isText) := by
    rw [map_isText_of_tells htells]
    exact hl.apart
  rw [faultOf?_of_tells htells] at hlexes
  rw [Node.iterate_eq_preorderAll]
  refine ⟨fun visited hv => ?_, spaced_of_apart hsectioned hapart, ?_, _, hlexes,
    fun visited hv => ?_⟩
  · obtain ⟨hnode, before, after, hmarks, _⟩ := exists_marks_of_preorderAll 0 _ hsectioned hv
    obtain ⟨earlier, segment, later, hsegments, _, hsegment, _⟩ :=
      exists_segment_of_preorderAll hsectioned htells hv
    have hm : segment ∈ segments pair source.toList := by
      rw [hsegments]
      exact List.mem_append_right _ List.mem_cons_self
    exact
      { label := regular_of_tells hsegment (hsound segment hm) (hl.written_ne_nil segment hm) hnode
        children := hnode.isSectionBegin
        spaced := spaced_of_apart hnode.children (apart_children hapart hmarks) }
  -- the nodes in pre-order are the marks without the ends of sections, and marks go with segments
  · have hlabels : (Node.preorderAll 0 document.nodes).map (fun visited => visited.1.position) =
        ((marksAll document.nodes).filterMap Mark.label?).map
          fun label => (⟨label, []⟩ : Node).position := by
      rw [labels_marksAll document.nodes 0, List.map_map]
      rfl
    rw [hlabels]
    refine List.Pairwise.sublist (positions_sublist htells hsound) ?_
    exact List.pairwise_map.2 (hl.sorted.imp fun hlt => Int.ofNat_lt.2 hlt)
  · obtain ⟨earlier, segment, later, hsegments, hfault, hsegment, hdepth⟩ :=
      exists_segment_of_preorderAll hsectioned htells hv
    have hm : segment ∈ segments pair source.toList := by
      rw [hsegments]
      exact List.mem_append_right _ List.mem_cons_self
    -- tags before the node and tags of earlier segments are the same, since segments are sorted
    have hposition := position_of_tells hsegment (hsound segment hm)
    have hsorted := hl.sorted
    rw [hsegments] at hsound hsorted
    rw [hposition, hsegments, tagsBefore_start hfault hsound hsorted]
    exact hdepth

/-- The text in the section stands at depth one, in a template whose section tags come after a switch of the
delimiters. -/
theorem shape_of_readFrom_switchedTemplate :
    (readFrom .braces switchedTemplate.source).outcome = .ok switchedTemplate ∧
      (∀ visited ∈ Node.iterate switchedTemplate.nodes, WellShaped visited.1) ∧
      ∃ tags, Lexes .braces 0 switchedTemplate.source.toList tags none ∧
        (1 : Int) = (begun (tagsBefore 17 tags) : Int) - ended (tagsBefore 17 tags) := by
  obtain ⟨hnodes, _, _, tags, hl, hdepth⟩ := shape_of_readFrom parse_switchedTemplate
  refine ⟨parse_switchedTemplate, hnodes, tags, hl, hdepth (⟨.text "b" 17, []⟩, 1) ?_⟩
  rw [Node.iterate_eq_preorderAll]
  exact .tail _ (.tail _ (.head _))

end Template

end Stencil

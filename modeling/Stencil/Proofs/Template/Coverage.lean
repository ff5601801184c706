import Mathlib.Data.List.Forall2
import Stencil.Proofs.Template.Layout
import Stencil.Template.Reading

/-!
# A document covers its source

Nothing of a source is lost in the document that is read from it. `marksAll` goes through the nodes in
pre-order, and after the body of each section it leaves a mark where the section is closed; the tag that
closes it is the only thing that the document does not keep. There are as many marks as segments, and
each of them fits its segment (`segments_cover`).

That is the work of two inductions. The drafts that segments are nested into are spread out again to the
segments they came from (`spreads_of_nests`), and if all sections are closed, the marks of the nodes
tell what the segments do (`tells_of_spreads`).
-/

set_option autoImplicit false

namespace Stencil.Template

open Draft

/-! ## Marks -/

/-- A place in a document: where a node is, or where a section is closed. -/
inductive Mark
  | node (label : Label)
  | close (opening : Tag)

def Mark.tag? : Mark → Option Tag
  | .node (.tag tag) => some tag
  | _ => none

def Mark.label? : Mark → Option Label
  | .node label => some label
  | .close _ => none

/-- Where a node is closed, if it is a section. -/
def closeMarks : Label → List Mark
  | .tag tag => if tag.isSectionBegin then [.close tag] else []
  | _ => []

mutual

def marks : Node → List Mark
  | ⟨label, children⟩ => .node label :: (marksAll children ++ closeMarks label)

/-- The marks of nodes in order. -/
def marksAll : List Node → List Mark
  | [] => []
  | node :: rest => marks node ++ marksAll rest

end

theorem labels_closeMarks (label : Label) : (closeMarks label).filterMap Mark.label? = [] := by
  unfold closeMarks
  split
  · split <;> rfl
  · rfl

mutual

theorem labels_marks (node : Node) (depth : Int) :
    (marks node).filterMap Mark.label? = (node.preorder depth).map (·.1.label) := by
  match node with
  | ⟨label, children⟩ =>
    have hcons (others : List Mark) : (.node label :: others : List Mark).filterMap Mark.label? =
        label :: others.filterMap Mark.label? := List.filterMap_cons_some rfl
    rw [marks, Node.preorder, hcons, List.filterMap_append, labels_marksAll children (depth + 1),
      labels_closeMarks, List.append_nil, List.map_cons]

/-- Apart from the ends of sections, the marks are the nodes in pre-order. -/
theorem labels_marksAll (nodes : List Node) (depth : Int) :
    (marksAll nodes).filterMap Mark.label? = (Node.preorderAll depth nodes).map (·.1.label) := by
  match nodes with
  | [] => rfl
  | node :: rest =>
    rw [marksAll, Node.preorderAll, List.filterMap_append, labels_marks node depth,
      labels_marksAll rest depth, List.map_append]

end

/-! ## Drafts spread out to segments -/

/-- These drafts were made of these segments. -/
inductive Spreads : List Draft → List Segment → Prop
  | nil : Spreads [] []
  | text {drafts : List Draft} {segment : Segment} {segments : List Segment} {content : List Char}
    (ht : segment.token = .text content) (hs : Spreads drafts segments) :
    Spreads (.leaf (.text (String.ofList content) segment.start) :: drafts) (segment :: segments)
  | leaf {drafts : List Draft} {segment : Segment} {segments : List Segment} {tag : Tag}
    (ht : segment.token = .tag tag) (hb : tag.isSectionBegin = false)
    (hs : Spreads drafts segments) : Spreads (.leaf (.tag tag) :: drafts) (segment :: segments)
  | opened {body drafts : List Draft} {segment : Segment} {inner segments : List Segment}
    {opening : Tag} (ht : segment.token = .tag opening) (hi : Spreads body inner)
    (hs : Spreads drafts segments) :
    Spreads (.block opening body none :: drafts) (segment :: inner ++ segments)
  | closed {body drafts : List Draft} {segment last : Segment} {inner segments : List Segment}
    {opening closing : Tag} (ht : segment.token = .tag opening)
    (hb : opening.isSectionBegin = true) (hi : Spreads body inner)
    (hc : last.token = .tag closing) (he : closing.isSectionEnd = true)
    (hs : Spreads drafts segments) :
    Spreads (.block opening body (some closing) :: drafts)
      (segment :: inner ++ last :: segments)

theorem Spreads.append {drafts others : List Draft} {segments rest : List Segment}
    (h : Spreads drafts segments) (ho : Spreads others rest) :
    Spreads (drafts ++ others) (segments ++ rest) := by
  induction h with
  | nil => exact ho
  | text ht _ ih => exact .text ht ih
  | leaf ht hb _ ih => exact .leaf ht hb ih
  | opened ht hi _ _ ih =>
    rw [List.append_assoc]
    exact .opened ht hi ih
  | closed ht hb hi hc he _ _ ih =>
    rw [List.append_assoc, List.cons_append]
    exact .closed ht hb hi hc he ih

/-- These segments have been read when these sections are open. -/
inductive SpreadsOpen : List Level → List Segment → Prop
  | nil : SpreadsOpen [] []
  | cons {level : Level} {outer : List Level} {segment : Segment} {before earlier : List Segment}
    (ho : SpreadsOpen outer before) (hs : Spreads level.earlier.reverse earlier)
    (ht : segment.token = .tag level.opening) (hb : level.opening.isSectionBegin = true) :
    SpreadsOpen (level :: outer) (before ++ earlier ++ [segment])

theorem spreads_abandon {openLevels : List Level} {body : List Draft}
    {before inner : List Segment} (ho : SpreadsOpen openLevels before)
    (hb : Spreads body.reverse inner) : Spreads (abandon openLevels body) (before ++ inner) := by
  induction ho generalizing body inner with
  | nil => exact hb
  | @cons level outer segment before earlier _ hs ht _ ih =>
    have hblock : Spreads (Draft.block level.opening body.reverse none :: level.earlier).reverse
        (earlier ++ (segment :: inner ++ [])) := by
      rw [List.reverse_cons]
      exact hs.append (.opened ht hb .nil)
    have h := ih hblock
    rw [abandon]
    simpa using h

/-- **Drafts are spread out to the segments that were nested into them.** -/
theorem spreads_of_nests {openLevels : List Level} {body drafts : List Draft}
    {segments before inner : List Segment} (h : Nests openLevels body segments drafts)
    (ho : SpreadsOpen openLevels before) (hb : Spreads body.reverse inner) :
    Spreads drafts (before ++ inner ++ segments) := by
  induction h generalizing before inner with
  | done =>
    rw [List.append_nil]
    exact spreads_abandon ho hb
  | @text openLevels body drafts segment rest content ht _ ih =>
    have hleaf : Spreads (.leaf (.text (String.ofList content) segment.start) :: body).reverse
        (inner ++ [segment]) := by
      rw [List.reverse_cons]
      exact hb.append (.text ht .nil)
    simpa using ih ho hleaf
  | @leaf openLevels body drafts segment rest tag ht hbegin _ _ ih =>
    have hleaf : Spreads (Draft.leaf (.tag tag) :: body).reverse (inner ++ [segment]) := by
      rw [List.reverse_cons]
      exact hb.append (.leaf ht hbegin .nil)
    simpa using ih ho hleaf
  | @opened openLevels body drafts segment rest tag ht hbegin _ ih =>
    have hlevel : SpreadsOpen (⟨tag, body⟩ :: openLevels) (before ++ inner ++ [segment]) :=
      .cons ho hb ht hbegin
    simpa using ih hlevel .nil
  | @closed level outer body drafts segment rest tag ht he _ ih =>
    -- the segments of the section that ends were kept apart from those before it
    cases ho with
    | @cons _ _ first before earlier ho hs hfirst hbegin =>
      have hblock : Spreads
          (Draft.block level.opening body.reverse (some tag) :: level.earlier).reverse
          (earlier ++ (first :: inner ++ [segment])) := by
        rw [List.reverse_cons]
        exact hs.append (.closed hfirst hbegin hb ht he .nil)
      simpa using ih ho hblock

/-! ## Marks tell what segments do -/

/-- A mark stands for what a segment was read as. -/
inductive Tells : Mark → Segment → Prop
  | text {segment : Segment} {content : List Char} (ht : segment.token = .text content) :
    Tells (.node (.text (String.ofList content) segment.start)) segment
  | tag {segment : Segment} {tag : Tag} (ht : segment.token = .tag tag) :
    Tells (.node (.tag tag)) segment
  | closing {segment : Segment} {opening tag : Tag} (ht : segment.token = .tag tag)
    (he : tag.isSectionEnd = true) (hn : tag.name = opening.name) :
    Tells (.close opening) segment

theorem marksAll_leaf_cons {label : Label} (h : closeMarks label = []) (drafts : List Draft) :
    marksAll (toNodes (.leaf label :: drafts)) = .node label :: marksAll (toNodes drafts) := by
  simp only [toNodes, toNode, marksAll, marks, h, List.append_nil, List.cons_append, List.nil_append]

theorem marksAll_block_cons {opening : Tag} (hb : opening.isSectionBegin = true)
    (body drafts : List Draft) (closing : Option Tag) :
    marksAll (toNodes (.block opening body closing :: drafts)) =
      .node (.tag opening) :: (marksAll (toNodes body) ++ .close opening ::
        marksAll (toNodes drafts)) := by
  simp only [toNodes, toNode, marksAll, marks, closeMarks, hb, if_true, List.cons_append,
    List.append_assoc, List.nil_append]

theorem closed_of_unclosedIn? {opening closing : Tag} {body drafts : List Draft}
    (h : unclosedIn? (.block opening body (some closing) :: drafts) = none) :
    closing.name = opening.name ∧ unclosedIn? body = none ∧ unclosedIn? drafts = none := by
  have happend := unclosedIn?_append [.block opening body (some closing)] drafts
  rw [List.singleton_append, h, unclosedIn?_block] at happend
  obtain ⟨hblock, hdrafts⟩ := Option.or_eq_none_iff.1 happend.symm
  obtain ⟨hopen, hbody⟩ := Option.or_eq_none_iff.1 hblock
  refine ⟨?_, hbody, hdrafts⟩
  cases hc : isClosed opening (some closing) with
  | true => simpa [isClosed] using hc
  | false => simp [openSection?, hc] at hopen

/-- **Marks tell what segments do**, in order, when all sections are closed. -/
theorem tells_of_spreads {drafts : List Draft} {segments : List Segment}
    (h : Spreads drafts segments) (hu : unclosedIn? drafts = none) :
    List.Forall₂ Tells (marksAll (toNodes drafts)) segments := by
  induction h with
  | nil => exact .nil
  | text ht _ ih =>
    rw [marksAll_leaf_cons rfl]
    exact .cons (.text ht) (ih hu)
  | leaf ht hb _ ih =>
    rw [marksAll_leaf_cons (by rw [closeMarks, if_neg (by rw [hb]; exact Bool.false_ne_true)])]
    exact .cons (.tag ht) (ih hu)
  | opened => cases hu
  | closed ht hb _ hc he _ ihBody ih =>
    obtain ⟨hn, hbody, hrest⟩ := closed_of_unclosedIn? hu
    rw [marksAll_block_cons hb]
    exact .cons (.tag ht) (List.rel_append (ihBody hbody) (.cons (.closing hc he hn) (ih hrest)))

/-- A document was nested out of the segments of its source, and all sections in it are closed. -/
theorem exists_nests_of_readFrom {pair : Delimiters} {source : String} {document : Document}
    (h : (readFrom pair source).outcome = .ok document) :
    ∃ drafts, Nests [] [] (segments pair source.toList) drafts ∧ unclosedIn? drafts = none ∧
      document = ⟨toNodes drafts, source⟩ := by
  rcases readFrom_cases pair source with ⟨stop, error, _, _, ho⟩ | ⟨drafts, hn, _, ho⟩
  · rw [ho] at h
    cases h
  · rw [ho] at h
    rcases close_cases source drafts with ⟨hu, hclose⟩ | ⟨tag, hclose⟩
    · rw [hclose] at h
      cases h
      exact ⟨drafts, nests_of_nest hn, hu, rfl⟩
    · rw [hclose] at h
      cases h

theorem tells_of_readFrom {pair : Delimiters} {source : String} {document : Document}
    (h : (readFrom pair source).outcome = .ok document) :
    List.Forall₂ Tells (marksAll document.nodes) (segments pair source.toList) := by
  obtain ⟨drafts, hn, hu, rfl⟩ := exists_nests_of_readFrom h
  exact tells_of_spreads (spreads_of_nests hn .nil .nil) hu

theorem tells_of_parse {source : String} {document : Document} (h : parse source = .ok document) :
    List.Forall₂ Tells (marksAll document.nodes) (segments .braces source.toList) :=
  tells_of_readFrom h

/-! ## Marks fit segments -/

/-- In this source, the segment is what the mark stands for. A text is the whole segment and ends where
texts end. A tag is bounded as tags are, and is what it is by what is between its delimiters; the tag
that closes a section is such a tag too, and has the name of the section. -/
inductive Fits (source : List Char) : Mark → Segment → Prop
  | text {segment : Segment} {content : String} {position : Int}
    (hw : segment.written = content.toList) (hp : position = segment.start)
    (he : EndsText segment.delimiters (source.drop segment.start) segment.written) :
    Fits source (.node (.text content position)) segment
  | tag {segment : Segment} {bounded : Bounded} {tag : Tag}
    (hb : Bounds segment.delimiters (source.drop segment.start) bounded)
    (hw : segment.written = bounded.written) (ht : tag = bounded.tag segment.start) :
    Fits source (.node (.tag tag)) segment
  | closing {segment : Segment} {bounded : Bounded} {opening tag : Tag}
    (hb : Bounds segment.delimiters (source.drop segment.start) bounded)
    (hw : segment.written = bounded.written) (ht : tag = bounded.tag segment.start)
    (he : tag.isSectionEnd = true) (hn : tag.name = opening.name) :
    Fits source (.close opening) segment

theorem fits_of_tells {source : List Char} {mark : Mark} {segment : Segment} (h : Tells mark segment)
    (hs : Sound source segment) : Fits source mark segment := by
  unfold Sound at hs
  cases h with
  | @text _ content ht =>
    rw [ht] at hs
    obtain ⟨hw, he⟩ := hs
    exact .text (by rw [hw, String.toList_ofList]) rfl (hw ▸ he)
  | tag ht =>
    rw [ht] at hs
    obtain ⟨bounded, hb, hw, htag⟩ := hs
    exact .tag hb hw htag
  | closing ht he hn =>
    rw [ht] at hs
    obtain ⟨bounded, hb, hw, htag⟩ := hs
    exact .closing hb hw htag he hn

theorem forall₂_fits_of_tells {source : List Char} {marks : List Mark} {segments : List Segment}
    (h : List.Forall₂ Tells marks segments) (hs : ∀ segment ∈ segments, Sound source segment) :
    List.Forall₂ (Fits source) marks segments := by
  induction h with
  | nil => exact .nil
  | cons ht _ ih =>
    obtain ⟨hsegment, hrest⟩ := List.forall_mem_cons.1 hs
    exact .cons (fits_of_tells ht hsegment) (ih hrest)

/-- The tags that switch the delimiters all have nodes. -/
theorem switchesIn_of_tells {marks : List Mark} {segments : List Segment}
    (h : List.Forall₂ Tells marks segments) :
    switchesIn (tagsOf segments) = switchesIn (marks.filterMap Mark.tag?) := by
  induction h with
  | nil => rfl
  | @cons mark segment marks segments ht _ ih =>
    cases ht with
    | text ht =>
      rw [tagsOf_cons_of_text ht]
      exact ih
    | @tag _ tag ht =>
      have hm : (.node (.tag tag) :: marks : List Mark).filterMap Mark.tag? =
          tag :: marks.filterMap Mark.tag? := List.filterMap_cons_some rfl
      rw [tagsOf_cons_of_tag ht, hm]
      by_cases hs : tag.type = .switch
      · rw [switchesIn_cons_of_switch hs, switchesIn_cons_of_switch hs, ih]
      · rw [switchesIn_cons_of_other hs, switchesIn_cons_of_other hs, ih]
    | @closing _ opening tag ht he =>
      -- the one tag without a node ends a section and switches nothing
      have hs : tag.type ≠ .switch := by
        intro hs
        simp [Tag.isSectionEnd, hs] at he
      rw [tagsOf_cons_of_tag ht, switchesIn_cons_of_other hs]
      exact ih

/-- **A document covers its source.** Its marks and the segments of the source go together one by one,
and each fits. The segments are not empty, and together they are the source. Each starts where the ones
before it end, and is read with the delimiters that the document puts in force there. -/
theorem segments_cover {source : String} {document : Document} (h : parse source = .ok document) :
    List.Forall₂ (Fits source.toList) (marksAll document.nodes) (segments .braces source.toList) ∧
      ((segments .braces source.toList).map Segment.written).flatten = source.toList ∧
      (∀ segment ∈ segments .braces source.toList, segment.written ≠ []) ∧
      ∀ k segment, (segments .braces source.toList)[k]? = some segment →
        segment.start =
            (((segments .braces source.toList).take k).map Segment.written).flatten.length ∧
          InForce .braces (((marksAll document.nodes).take k).filterMap Mark.tag?)
            segment.delimiters := by
  have hl : Laid .braces 0 source.toList (segments .braces source.toList) :=
    laid_segments ⟨.braces, 0, source.toList⟩
  have ht := tells_of_parse h
  refine ⟨forall₂_fits_of_tells ht (hl.sound rfl), hl.flatten, hl.written_ne_nil,
    fun k segment hk => ⟨?_, ?_⟩⟩
  · rw [hl.start hk, Nat.zero_add]
  · have hforce := hl.inForce hk
    -- what is in force depends on the switches so far, and these are the same in marks and segments
    have hswitches := switchesIn_of_tells (List.forall₂_take k ht)
    unfold InForce at hforce ⊢
    rw [← hswitches]
    exact hforce

/-! ## A template with other delimiters -/

def percents : Delimiters := ⟨['<', '%'], ['%', '>'], by simp, by simp⟩

/-- A section, after a tag that switches the delimiters. -/
def switchedTemplate : Document :=
  ⟨[⟨.tag ⟨"<% %>", .switch, 0⟩, []⟩, ⟨.tag ⟨"s", .sectionBegin, 11⟩, [⟨.text "b" 17, []⟩]⟩],
    "{{=<% %>=}}<%#s%>b<%/s%>"⟩

def switchedSegments : List Segment :=
  [⟨0, "{{=<% %>=}}".toList, .braces, percents, .tag ⟨"<% %>", .switch, 0⟩⟩,
    ⟨11, "<%#s%>".toList, percents, percents, .tag ⟨"s", .sectionBegin, 11⟩⟩,
    ⟨17, ['b'], percents, percents, .text ['b']⟩,
    ⟨18, "<%/s%>".toList, percents, percents, .tag ⟨"s", .sectionEnd, 18⟩⟩]

theorem segments_switchedTemplate :
    segments .braces switchedTemplate.source.toList = switchedSegments := by
  have first : Cursor.step ⟨.braces, 0, switchedTemplate.source.toList⟩ =
      (switchedSegments.take 1, some ⟨percents, 11, "<%#s%>b<%/s%>".toList⟩) := rfl
  have second : Cursor.step ⟨percents, 11, "<%#s%>b<%/s%>".toList⟩ =
      ((switchedSegments.drop 1).take 1, some ⟨percents, 17, "b<%/s%>".toList⟩) := rfl
  have third : Cursor.step ⟨percents, 17, "b<%/s%>".toList⟩ =
      (switchedSegments.drop 2, some ⟨percents, 24, []⟩) := rfl
  rw [segments, Cursor.segments_of_step first, Cursor.segments_of_step second,
    Cursor.segments_of_step third, Cursor.segments_eq]
  rfl

theorem parse_switchedTemplate : parse switchedTemplate.source = .ok switchedTemplate := by
  simp only [parse, read, readFrom, segments_switchedTemplate]
  rfl

/-- Four segments are covered by three nodes and the end of a section. -/
theorem segments_cover_switchedTemplate :
    parse switchedTemplate.source = .ok switchedTemplate ∧
      List.Forall₂ (Fits switchedTemplate.source.toList)
        [.node (.tag ⟨"<% %>", .switch, 0⟩), .node (.tag ⟨"s", .sectionBegin, 11⟩),
          .node (.text "b" 17), .close ⟨"s", .sectionBegin, 11⟩]
        switchedSegments ∧
      (switchedSegments.map Segment.written).flatten = switchedTemplate.source.toList := by
  have h := segments_cover parse_switchedTemplate
  rw [segments_switchedTemplate] at h
  exact ⟨parse_switchedTemplate, h.1, h.2.1⟩

end Stencil.Template

import Stencil.Proofs.Template.Coverage
import Stencil.Proofs.Template.Moving
import Stencil.Proofs.Template.Writing

/-!
# Documents in canonical form

A document can be written back without knowing how its source was written: texts as they are, and each
tag with a fixed number of blanks. Between the delimiters of the tags that a reader can produce almost
anything is possible, so this is not obviously safe. It is, as long as the delimiters are never switched:
what is read from the canonical form is the same document, up to the positions (`parse_canonical`).

A document in canonical form is its source with one segment after the other replaced. What has to be
known of a segment is what the reader knew when it ended it: which delimiter a text comes before, and
that what closes a tag is not part of its name (`Tag.Recoverable`). Then the segments of what is written
are found again one by one (`segments_canonical`).
-/

set_option autoImplicit false

namespace Stencil

open Text

/-! ## The canonical form -/

/-- What stands between the braces is set off by a blank, except that a sigil comes first. A tag that is
not escaped is written with three braces, with whatever it was written before. -/
def Tag.canonical (tag : Tag) : List Char :=
  match tag.type with
  | .escaped => ['{', '{', ' '] ++ tag.name.toList ++ [' ', '}', '}']
  | .unescaped => ['{', '{', '{', ' '] ++ tag.name.toList ++ [' ', '}', '}', '}']
  | type => ['{', '{'] ++ type.sigil ++ tag.name.toList ++ [' ', '}', '}']

namespace Template

def Mark.canonical : Mark → List Char
  | .node .root => []
  | .node (.text content _) => content.toList
  | .node (.tag tag) => tag.canonical
  | .close opening => { opening with type := .sectionEnd : Tag }.canonical

end Template

open Template

namespace Node

mutual

/-- A tree written out: the node, what is under it and, for a section, its end. -/
def canonical : Node → List Char
  | ⟨label, children⟩ =>
    (Mark.node label).canonical ++ canonicalAll children ++ (closeMarks label).flatMap Mark.canonical

def canonicalAll : List Node → List Char
  | [] => []
  | node :: rest => node.canonical ++ canonicalAll rest

end

end Node

def Document.canonical (document : Document) : String :=
  String.ofList (Node.canonicalAll document.nodes)

/-- The tag has a name that its canonical form does not change: nothing in it closes the tag, or makes it
a tag of another type. -/
structure Tag.Recoverable (tag : Tag) : Prop where
  trimmed : trim tag.name.toList = tag.name.toList
  valid : tag.type ≠ .invalid
  kept : tag.type ≠ .switch
  plain : tag.type = .escaped → Plain tag.name.toList
  closing : ¬ closingOf .braces (tag.type == .unescaped) <:+: tag.name.toList

namespace Template

open Draft

mutual

theorem canonical_eq_marks : (node : Node) → node.canonical = (marks node).flatMap Mark.canonical
  | ⟨label, children⟩ => by
    rw [Node.canonical, marks, List.flatMap_cons, List.flatMap_append,
      canonicalAll_eq_marksAll children, List.append_assoc]

theorem canonicalAll_eq_marksAll : (nodes : List Node) →
    Node.canonicalAll nodes = (marksAll nodes).flatMap Mark.canonical
  | [] => rfl
  | node :: rest => by
    rw [Node.canonicalAll, marksAll, List.flatMap_append, canonical_eq_marks node,
      canonicalAll_eq_marksAll rest]

end

/-! ## Names that are read back -/

/-- No sigil stands for a type of tag that is told by something else. -/
theorem ofSigil?_ne {c : Char} {type : TagType} (h : TagType.ofSigil? c = some type) :
    type ≠ .invalid ∧ type ≠ .switch ∧ type ≠ .escaped := by
  unfold TagType.ofSigil? at h
  split at h <;> cases h <;> decide

/-- What a tag of two braces is read as has a trimmed name that is part of what is between them. -/
theorem recoverable_classify {interior : List Char} {position : Int}
    (hs : (Tag.classify (trim interior) false position).type ≠ .switch)
    (hn : ¬ Delimiters.braces.closing <:+: interior) :
    (Tag.classify (trim interior) false position).Recoverable := by
  -- three braces contain two
  have hclosing {name : List Char} (hpart : name <:+: interior) (triple : Bool) :
      ¬ closingOf .braces triple <:+: name := by
    intro ho
    have hbraces : Delimiters.braces.closing <:+: closingOf .braces triple := by
      cases triple <;> decide
    exact hn (hbraces.trans (ho.trans hpart))
  have htrim : trim (trim interior) = trim interior := trim_trim interior
  have hpart : trim interior <:+: interior := trim_isInfix interior
  revert hs htrim hpart
  generalize trim interior = contents
  intro hs htrim hpart
  cases contents with
  | nil =>
    refine ⟨rfl, ?_, ?_, ?_, hclosing (List.nil_infix) _⟩
    · rintro ⟨⟩
    · rintro ⟨⟩
    · rintro _ c more ⟨⟩
  | cons sigil rest =>
    simp only [Tag.classify, Bool.false_eq_true, if_false] at hs ⊢
    split at hs
    · exact absurd rfl hs
    · next hswitch =>
      rw [if_neg hswitch]
      cases hsigil : TagType.ofSigil? sigil with
      | none =>
        refine ⟨?_, ?_, ?_, fun _ => ?_, hclosing ?_ _⟩
        · rw [String.toList_ofList, htrim]
        · rintro ⟨⟩
        · rintro ⟨⟩
        · rw [String.toList_ofList]
          rintro c more ⟨⟩
          exact ⟨hsigil, by simpa using hswitch⟩
        · rw [String.toList_ofList]
          exact hpart
      | some type =>
        have hrest : trim rest <:+: interior :=
          (trim_isInfix rest).trans ((List.suffix_cons sigil rest).isInfix.trans hpart)
        obtain ⟨hvalid, hkept, hescaped⟩ := ofSigil?_ne hsigil
        refine ⟨?_, hvalid, hkept, fun h => absurd h hescaped, hclosing ?_ _⟩
        · rw [String.toList_ofList, trim_trim]
        · rw [String.toList_ofList]
          exact hrest

/-- **A tag that is read between braces can be written in canonical form and read again**, unless it
switches the delimiters. -/
theorem recoverable_of_bounds {text : List Char} {bounded : Bounded}
    (hb : Bounds .braces text bounded) {offset : Nat}
    (hs : (bounded.tag offset).type ≠ .switch) : (bounded.tag offset).Recoverable := by
  obtain ⟨inside, _, hf⟩ := hb.inside
  have hn : ¬ closingOf .braces bounded.triple <:+: bounded.interior :=
    hf.not_isInfix (closingOf_ne_nil _ _)
  unfold Bounded.tag at hs ⊢
  -- three braces make a tag of one type whatever is inside, and only two leave it to the sigil
  cases htriple : bounded.triple with
  | false =>
    rw [htriple] at hs hn
    exact recoverable_classify hs hn
  | true =>
    rw [htriple] at hn
    have htag : Tag.classify (trim bounded.interior) true offset =
        ⟨String.ofList (trim bounded.interior), .unescaped, offset⟩ := rfl
    rw [htag]
    refine ⟨?_, nofun, nofun, nofun, ?_⟩
    · rw [String.toList_ofList, trim_trim]
    · rw [String.toList_ofList]
      exact fun ho => hn (ho.trans (trim_isInfix _))

/-! ## Tags in canonical form -/

theorem blank_nil : Blank [] := List.forall_mem_nil _

theorem blank_space : Blank [' '] := List.forall_mem_singleton.2 rfl

/-- A blank on either side of the name. -/
def spaced : Padding := ⟨[' '], [], [' '], blank_space, blank_nil, blank_space⟩

/-- A blank behind the name. -/
def trailing : Padding := ⟨[], [], [' '], blank_nil, blank_nil, blank_space⟩

/-- Between two braces stand one character, which is no brace, then the name and a blank. -/
theorem exists_padding {tag : Tag} (hr : tag.Recoverable) (hu : tag.type ≠ .unescaped) :
    ∃ (padding : Padding) (c : Char),
      padding.interior tag.type tag.name = c :: (tag.name.toList ++ [' ']) ∧
      tag.canonical = writeTag .braces (padding.interior tag.type tag.name) ∧ c ≠ '{' ∧
      c ∉ Delimiters.braces.closing := by
  obtain ⟨name, type, position⟩ := tag
  have hspaced (lead : List Char) : ['{', '{'] ++ lead ++ name.toList ++ [' ', '}', '}'] =
      writeTag .braces (lead ++ (name.toList ++ [' '])) := by
    simp [writeTag, Delimiters.braces]
  cases type with
  | invalid => exact absurd rfl hr.valid
  | switch => exact absurd rfl hr.kept
  | unescaped => exact absurd rfl hu
  | escaped => exact ⟨spaced, ' ', rfl, hspaced [' '], by decide, by decide⟩
  | sectionBegin => exact ⟨trailing, '#', rfl, hspaced ['#'], by decide, by decide⟩
  | sectionEnd => exact ⟨trailing, '/', rfl, hspaced ['/'], by decide, by decide⟩
  | invertedBegin => exact ⟨trailing, '^', rfl, hspaced ['^'], by decide, by decide⟩
  | comment => exact ⟨trailing, '!', rfl, hspaced ['!'], by decide, by decide⟩
  | inclusion => exact ⟨trailing, '>', rfl, hspaced ['>'], by decide, by decide⟩

theorem not_isInfix_cons {c : Char} {pattern text : List Char} (hp : pattern ≠ []) (hc : c ∉ pattern)
    (hn : ¬ pattern <:+: text) : ¬ pattern <:+: c :: text := by
  intro ho
  rcases List.infix_cons_iff.1 ho with ho | ho
  · cases pattern with
    | nil => exact hp rfl
    | cons d rest =>
      obtain ⟨rfl, _⟩ := List.cons_prefix_cons.1 ho
      exact hc List.mem_cons_self
  · exact hn ho

/-- A tag of three braces is one segment, too. -/
theorem segments_writeTriple {interior : List Char}
    (hf : FirstAt (closingOf .braces true) (interior ++ closingOf .braces true) interior [])
    (offset : Nat) (more : List Char) :
    let written := openingOf .braces true ++ interior ++ closingOf .braces true
    Cursor.segments ⟨.braces, offset, written ++ more⟩ =
      ⟨offset, written, .braces, .braces, .tag ⟨String.ofList (trim interior), .unescaped, offset⟩⟩ ::
        Cursor.segments ⟨.braces, offset + written.length, more⟩ := by
  intro written
  -- seen from the reader: two braces, a third one behind them, and all that comes after that
  let inside := interior ++ closingOf .braces true ++ more
  have hsource : written ++ more = Delimiters.braces.opening ++ '{' :: inside := by
    simp only [written, inside, openingOf, if_true, List.append_assoc, List.cons_append,
      List.nil_append]
  have hb : Bounds .braces (Delimiters.braces.opening ++ '{' :: inside)
      ⟨true, interior, written, more⟩ := by
    refine ⟨⟨inside, ⟨?_, ?_⟩, hf.append more⟩, rfl⟩
    · refine iff_of_true rfl ⟨rfl, ?_⟩
      rw [List.prefix_append_right_inj]
      exact List.prefix_append ['{'] inside
    · rw [openingOf, if_pos rfl, List.append_assoc]
      rfl
  have hstep := @Cursor.step_of_tag ⟨.braces, offset, Delimiters.braces.opening ++ '{' :: inside⟩
    [] _ _ .braces (firstAt_opening .braces _) hb (.kept nofun)
  rw [hsource, Cursor.segments_of_step hstep]
  rfl

/-- A tag in canonical form is one segment, and it is read as itself. -/
theorem exists_segments_canonical {tag : Tag} (hr : tag.Recoverable) (offset : Nat)
    (more : List Char) :
    ∃ segment : Segment, segment.token = .tag { tag with position := offset } ∧
      Cursor.segments ⟨.braces, offset, tag.canonical ++ more⟩ =
        segment :: Cursor.segments ⟨.braces, offset + tag.canonical.length, more⟩ := by
  by_cases hu : tag.type = .unescaped
  · obtain ⟨name, type, position⟩ := tag
    obtain rfl : type = .unescaped := hu
    have hf : FirstAt (closingOf .braces true)
        (' ' :: name.toList ++ [' '] ++ closingOf .braces true) (' ' :: name.toList ++ [' ']) [] :=
      firstAt_of_not_isInfix (by decide)
        (not_isInfix_cons (closingOf_ne_nil _ _) (by decide) hr.closing)
    have hwritten : (⟨name, .unescaped, position⟩ : Tag).canonical =
        openingOf .braces true ++ (' ' :: name.toList ++ [' ']) ++ closingOf .braces true := by
      simp [Tag.canonical, openingOf, closingOf, Delimiters.braces]
    have hname : trim (' ' :: name.toList ++ [' ']) = name.toList := by
      rw [trim_append_blanks _ blank_space, ← List.singleton_append, trim_blanks_append blank_space]
      exact hr.trimmed
    rw [hwritten]
    refine ⟨_, ?_, segments_writeTriple hf offset more⟩
    rw [hname, String.ofList_toList]
  · obtain ⟨padding, c, hinterior, hcanonical, hthird, hclosing⟩ := exists_padding hr hu
    have hn : ¬ Delimiters.braces.closing <:+: tag.name.toList := by
      have h := hr.closing
      rwa [beq_eq_false_iff_ne.2 hu] at h
    have hl : LegibleInterior .braces (padding.interior tag.type tag.name) := by
      rw [hinterior]
      refine ⟨?_, fun _ => by rwa [List.head?_cons, ne_eq, Option.some.injEq]⟩
      exact firstAt_of_not_isInfix (by decide)
        (not_isInfix_cons Delimiters.braces.closing_ne_nil hclosing hn)
    rw [hcanonical]
    obtain ⟨segment, htoken, _, _, hread⟩ :=
      exists_segments_tag hl hr.kept hr.valid hr.trimmed hr.plain offset more
    exact ⟨segment, htoken, hread⟩

/-! ## Segments in canonical form -/

/-- What is written for a segment. -/
def Segment.canonical (segment : Segment) : List Char :=
  match segment.token with
  | .text content => content
  | .tag tag => tag.canonical
  | .fault _ => []

theorem canonical_of_token {segment : Segment} {tag : Tag} (h : segment.token = .tag tag) :
    segment.canonical = tag.canonical := by
  rw [Segment.canonical, h]

/-- The segment was read, and the delimiters after it are those before it. -/
def Segment.Settled (segment : Segment) : Prop :=
  match segment.token with
  | .text _ => True
  | .tag tag => tag.type ≠ .switch
  | .fault _ => False

/-- An entry without its position. -/
def unplacedEntry (segment : Segment) : Except SyntaxError Label :=
  movedResult (fun _ => 0) (Label.moved fun _ => 0) segment.entry

theorem exists_canonical_eq_opening {tag : Tag} (hr : tag.Recoverable) :
    ∃ after, tag.canonical = Delimiters.braces.opening ++ after := by
  by_cases hu : tag.type = .unescaped
  · unfold Tag.canonical
    rw [hu]
    exact ⟨_, rfl⟩
  · obtain ⟨padding, c, _, hcanonical, _⟩ := exists_padding hr hu
    rw [hcanonical, writeTag, List.append_assoc]
    exact ⟨_, rfl⟩

/-- A text that more comes after ends where the opening delimiter is found first. -/
theorem legibleText_of_endsText {pair : Delimiters} {content rest : List Char}
    (he : EndsText pair (content ++ rest) content) (hne : rest ≠ []) :
    LegibleText pair false content := by
  rcases he with ⟨after, hf⟩ | ⟨hlast, _⟩
  · rw [hf.eq] at hf
    exact hf.of_append
  · exact absurd (List.append_right_eq_self.1 hlast) hne

/-- A text that the source ends with has no opening delimiter in it. -/
theorem legibleText_last_of_endsText {pair : Delimiters} {content : List Char}
    (he : EndsText pair (content ++ []) content) : LegibleText pair true content := by
  rcases he with ⟨after, hf⟩ | ⟨_, hn⟩
  · have heq := hf.eq
    rw [List.append_assoc] at heq
    exact absurd (List.append_cancel_left heq).symm (opening_append_ne_nil pair after)
  · exact hn

theorem Laid.ne_nil {pair : Delimiters} {offset : Nat} {text : List Char} {segment : Segment}
    {segments : List Segment} (hl : Laid pair offset text (segment :: segments)) : text ≠ [] := by
  intro h
  have hflatten := hl.flatten
  rw [h, List.map_cons, List.flatten_cons] at hflatten
  exact hl.written_ne_nil segment List.mem_cons_self (List.append_eq_nil_iff.1 hflatten).1

/-- What is written for the segments after a text goes on as they do: with a tag, or not at all. -/
theorem exists_continues {offset : Nat} {content rest : List Char} {segments : List Segment}
    (he : EndsText .braces (content ++ rest) content) (hl : Laid .braces offset rest segments)
    (hs : ∀ segment ∈ segments, segment.Settled) :
    ∃ isLast, LegibleText .braces isLast content ∧
      Continues .braces isLast (segments.flatMap Segment.canonical) := by
  cases segments with
  | nil =>
    cases hl with
    | nil => exact ⟨true, legibleText_last_of_endsText he, rfl⟩
  | cons segment others =>
    refine ⟨false, legibleText_of_endsText he hl.ne_nil, ?_⟩
    have htext := not_text_of_endsText he hl
    have hsettled := hs segment List.mem_cons_self
    cases hl with
    | text => exact absurd rfl (htext _)
    | fault => exact hsettled.elim
    | tag hb _ _ =>
      obtain ⟨after, hafter⟩ := exists_canonical_eq_opening (recoverable_of_bounds hb hsettled)
      rw [List.flatMap_cons, canonical_of_token rfl, hafter, List.append_assoc]
      exact ⟨_, rfl⟩

/-- **What is written for segments is read as they were**, but for the positions. -/
theorem segments_canonical {pair : Delimiters} {offset : Nat} {text : List Char}
    {segments : List Segment} (hl : Laid pair offset text segments) (hp : pair = .braces)
    (hs : ∀ segment ∈ segments, segment.Settled) (place : Nat) :
    (Cursor.segments ⟨.braces, place, segments.flatMap Segment.canonical⟩).map unplacedEntry =
      segments.map unplacedEntry := by
  -- over the layout, and for any place, since what is written for a segment has another length
  induction hl generalizing place with
  | nil =>
    rw [List.flatMap_nil, segments_nil]
  | @text pair offset content rest segments hne he hl ih =>
    subst hp
    obtain ⟨_, hrest⟩ := List.forall_mem_cons.1 hs
    obtain ⟨isLast, hlegible, hcontinues⟩ := exists_continues he hl hrest
    rw [List.flatMap_cons, Segment.canonical, segments_text hne hlegible hcontinues, List.map_cons,
      List.map_cons, ih rfl hrest]
    rfl
  | @tag pair next offset text bounded segments hb hn hl ih =>
    subst hp
    obtain ⟨hsettled, hrest⟩ := List.forall_mem_cons.1 hs
    obtain ⟨segment, htoken, hread⟩ := exists_segments_canonical
      (recoverable_of_bounds hb hsettled) place (segments.flatMap Segment.canonical)
    have hnext : next = .braces := by
      cases hn with
      | kept => rfl
      | switched h => exact absurd h hsettled
    have hentry : unplacedEntry segment =
        unplacedEntry ⟨offset, bounded.written, .braces, next, .tag (bounded.tag offset)⟩ := by
      unfold unplacedEntry Segment.entry
      rw [htoken]
      rfl
    rw [List.flatMap_cons, canonical_of_token rfl, hread, List.map_cons, List.map_cons,
      ih hnext hrest, hentry]
  | fault => exact (hs _ List.mem_cons_self).elim

/-! ## Documents in canonical form -/

mutual

theorem unplaced_eq_moved : (node : Node) → node.unplaced = node.moved fun _ => 0
  | ⟨.root, children⟩ => by
    rw [Node.unplaced, Node.moved, unplacedAll_eq_movedAll children, Label.moved]
  | ⟨.text content position, children⟩ => by
    rw [Node.unplaced, Node.moved, unplacedAll_eq_movedAll children, Label.moved]
  | ⟨.tag tag, children⟩ => by
    rw [Node.unplaced, Node.moved, unplacedAll_eq_movedAll children, Label.moved, Tag.moved]

theorem unplacedAll_eq_movedAll : (nodes : List Node) →
    Node.unplacedAll nodes = Node.movedAll (fun _ => 0) nodes
  | [] => by rw [Node.unplacedAll, Node.movedAll]
  | node :: rest => by
    rw [Node.unplacedAll, Node.movedAll, unplaced_eq_moved node, unplacedAll_eq_movedAll rest]

end

/-- Documents that are the same up to positions have the same sequence of tags. -/
theorem tagSequence_eq_of_unplaced {document other : Document}
    (h : Node.unplacedAll document.nodes = Node.unplacedAll other.nodes) :
    document.tagSequence = other.tagSequence := by
  rw [unplacedAll_eq_movedAll, unplacedAll_eq_movedAll] at h
  calc document.tagSequence
      = (⟨Node.movedAll (fun _ => 0) document.nodes, ""⟩ : Document).tagSequence :=
        (Document.tagSequence_moved _ document.nodes "" document.source).symm
    _ = (⟨Node.movedAll (fun _ => 0) other.nodes, ""⟩ : Document).tagSequence := by rw [h]
    _ = other.tagSequence := Document.tagSequence_moved _ other.nodes "" other.source

theorem canonical_of_tells {mark : Mark} {segment : Segment} (h : Tells mark segment) :
    mark.canonical = segment.canonical := by
  cases h with
  | text ht =>
    rw [Segment.canonical, ht]
    exact String.toList_ofList
  | tag ht => rw [canonical_of_token ht, Mark.canonical]
  | @closing _ opening tag ht he hn =>
    have hend : tag.type = .sectionEnd := by simpa [Tag.isSectionEnd] using he
    rw [canonical_of_token ht, Mark.canonical, Tag.canonical, Tag.canonical, hend, hn]

theorem flatMap_canonical_of_tells {marks : List Mark} {segments : List Segment}
    (h : List.Forall₂ Tells marks segments) :
    marks.flatMap Mark.canonical = segments.flatMap Segment.canonical := by
  induction h with
  | nil => rfl
  | cons ht _ ih => rw [List.flatMap_cons, List.flatMap_cons, canonical_of_tells ht, ih]

/-- The tags of a document are all in its sequence of tags. -/
theorem exists_mem_tagSequence {document : Document} {tag : Tag}
    (h : Mark.node (.tag tag) ∈ marksAll document.nodes) :
    ∃ depth, (depth, tag.type, tag.name) ∈ document.tagSequence := by
  have hlabel : Label.tag tag ∈ (marksAll document.nodes).filterMap Mark.label? :=
    List.mem_filterMap.2 ⟨_, h, rfl⟩
  rw [labels_marksAll document.nodes 0] at hlabel
  obtain ⟨visited, hvisited, heq⟩ := List.mem_map.1 hlabel
  refine ⟨visited.2, ?_⟩
  rw [Document.tagSequence_eq]
  refine List.mem_filterMap.2 ⟨visited, hvisited, ?_⟩
  simp only [listedTag?, Node.tag?, heq, Option.map_some]

theorem settled_of_tells {marks : List Mark} {segments : List Segment}
    (h : List.Forall₂ Tells marks segments)
    (hk : ∀ tag, Mark.node (.tag tag) ∈ marks → tag.type ≠ .switch) :
    ∀ segment ∈ segments, segment.Settled := by
  induction h with
  | nil => exact fun segment hm => absurd hm List.not_mem_nil
  | cons ht _ ih =>
    refine List.forall_mem_cons.2 ⟨?_, ih fun tag hm => hk tag (List.mem_cons_of_mem _ hm)⟩
    unfold Segment.Settled
    cases ht with
    | text ht => rw [ht]; trivial
    | tag ht =>
      rw [ht]
      exact hk _ List.mem_cons_self
    | closing ht he =>
      rw [ht]
      intro hswitch
      simp [Tag.isSectionEnd, hswitch] at he

theorem toList_canonical {source : String} {document : Document} (h : parse source = .ok document) :
    document.canonical.toList = (segments .braces source.toList).flatMap Segment.canonical := by
  rw [Document.canonical, String.toList_ofList, canonicalAll_eq_marksAll,
    flatMap_canonical_of_tells (tells_of_parse h)]

theorem assemble_of_parse {source : String} {document : Document}
    (h : parse source = .ok document) :
    assemble ((segments .braces source.toList).map Segment.entry) = .ok document.nodes :=
  assemble_of_readFrom h

/-- **A document that is written in canonical form and read again is the same document**, up to its
positions, if the delimiters are not switched in it. -/
theorem parse_canonical {source : String} {document : Document} (h : parse source = .ok document)
    (hs : ∀ entry ∈ document.tagSequence, entry.2.1 ≠ .switch) :
    ∃ again, parse document.canonical = .ok again ∧
      Node.unplacedAll again.nodes = Node.unplacedAll document.nodes ∧
      again.tagSequence = document.tagSequence := by
  have hsettled : ∀ segment ∈ segments .braces source.toList, segment.Settled := by
    refine settled_of_tells (tells_of_parse h) fun tag hm => ?_
    obtain ⟨depth, hentry⟩ := exists_mem_tagSequence hm
    exact hs _ hentry
  have hread := segments_canonical (laid_segments ⟨.braces, 0, source.toList⟩) rfl hsettled 0
  -- up to positions both sources have the same entries, and a document is assembled from entries alone
  have hentries : ((segments .braces source.toList).map Segment.entry).map
        (movedResult (fun _ => 0) (Label.moved fun _ => 0)) =
      ((segments .braces document.canonical.toList).map Segment.entry).map
        (movedResult (fun _ => 0) (Label.moved fun _ => 0)) := by
    rw [List.map_map, List.map_map, toList_canonical h]
    exact hread.symm
  obtain ⟨nodes, hnodes, hmoved⟩ := exists_assemble _ _ hentries (assemble_of_parse h)
  have hsame : Node.unplacedAll nodes = Node.unplacedAll document.nodes := by
    rw [unplacedAll_eq_movedAll, unplacedAll_eq_movedAll, hmoved]
  refine ⟨⟨nodes, document.canonical⟩, ?_, hsame, tagSequence_eq_of_unplaced hsame⟩
  have houtcome := outcome_readFrom .braces document.canonical
  rw [hnodes] at houtcome
  exact houtcome

/-- A tag of three braces with braces in its name, a section, a tag that is not escaped for its sigil, and
a comment that starts with a sigil. -/
def bracesTemplate : Document :=
  ⟨[⟨.tag ⟨"{{a}}b", .unescaped, 0⟩, []⟩,
    ⟨.tag ⟨"s", .sectionBegin, 14⟩,
      [⟨.tag ⟨"c", .unescaped, 20⟩, []⟩, ⟨.tag ⟨"#d", .comment, 28⟩, []⟩]⟩,
    ⟨.text "x" 43, []⟩],
    "{{{ {{a}}b }}}{{#s}}{{& c }}{{!#d}}{{/ s }}x"⟩

def bracesSegments : List Segment :=
  [⟨0, "{{{ {{a}}b }}}".toList, .braces, .braces, .tag ⟨"{{a}}b", .unescaped, 0⟩⟩,
    ⟨14, "{{#s}}".toList, .braces, .braces, .tag ⟨"s", .sectionBegin, 14⟩⟩,
    ⟨20, "{{& c }}".toList, .braces, .braces, .tag ⟨"c", .unescaped, 20⟩⟩,
    ⟨28, "{{!#d}}".toList, .braces, .braces, .tag ⟨"#d", .comment, 28⟩⟩,
    ⟨35, "{{/ s }}".toList, .braces, .braces, .tag ⟨"s", .sectionEnd, 35⟩⟩,
    ⟨43, ['x'], .braces, .braces, .text ['x']⟩]

theorem parse_bracesTemplate : parse bracesTemplate.source = .ok bracesTemplate := by
  -- reading recurses on what is left, so it is unfolded step by step
  have hread : segments .braces bracesTemplate.source.toList = bracesSegments := by
    have first : Cursor.step ⟨.braces, 0, bracesTemplate.source.toList⟩ =
        (bracesSegments.take 1, some ⟨.braces, 14, "{{#s}}{{& c }}{{!#d}}{{/ s }}x".toList⟩) := rfl
    have second : Cursor.step ⟨.braces, 14, "{{#s}}{{& c }}{{!#d}}{{/ s }}x".toList⟩ =
        ((bracesSegments.drop 1).take 1, some ⟨.braces, 20, "{{& c }}{{!#d}}{{/ s }}x".toList⟩) := rfl
    have third : Cursor.step ⟨.braces, 20, "{{& c }}{{!#d}}{{/ s }}x".toList⟩ =
        ((bracesSegments.drop 2).take 1, some ⟨.braces, 28, "{{!#d}}{{/ s }}x".toList⟩) := rfl
    have fourth : Cursor.step ⟨.braces, 28, "{{!#d}}{{/ s }}x".toList⟩ =
        ((bracesSegments.drop 3).take 1, some ⟨.braces, 35, "{{/ s }}x".toList⟩) := rfl
    have fifth : Cursor.step ⟨.braces, 35, "{{/ s }}x".toList⟩ =
        ((bracesSegments.drop 4).take 1, some ⟨.braces, 43, ['x']⟩) := rfl
    rw [segments, Cursor.segments_of_step first, Cursor.segments_of_step second,
      Cursor.segments_of_step third, Cursor.segments_of_step fourth, Cursor.segments_of_step fifth,
      Cursor.segments_eq]
    rfl
  simp only [parse, read, readFrom, hread]
  rfl

theorem parse_canonical_bracesTemplate :
    parse bracesTemplate.source = .ok bracesTemplate ∧
      bracesTemplate.canonical = "{{{ {{a}}b }}}{{#s }}{{{ c }}}{{!#d }}{{/s }}x" ∧
      ∃ again, parse "{{{ {{a}}b }}}{{#s }}{{{ c }}}{{!#d }}{{/s }}x" = .ok again ∧
        Node.unplacedAll again.nodes = Node.unplacedAll bracesTemplate.nodes ∧
        again.tagSequence = bracesTemplate.tagSequence := by
  have hcanonical : bracesTemplate.canonical =
      "{{{ {{a}}b }}}{{#s }}{{{ c }}}{{!#d }}{{/s }}x" := by decide
  have hs : ∀ entry ∈ bracesTemplate.tagSequence, entry.2.1 ≠ .switch := by
    rw [Document.tagSequence_eq]
    decide
  have h := parse_canonical parse_bracesTemplate hs
  rw [hcanonical] at h
  exact ⟨parse_bracesTemplate, hcanonical, h⟩

end Template

end Stencil

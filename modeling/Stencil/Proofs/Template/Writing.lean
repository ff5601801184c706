import Mathlib.Data.List.Chain
import Stencil.Proofs.Template.Lexing
import Stencil.Proofs.Template.Nesting
import Stencil.Proofs.Text.Trimming
import Stencil.Template.Reading

/-!
# Writing a tree out and reading it back

A tree is written out node by node: a text as it is, a tag between the delimiters, with its sigil and
its name and as many blanks around these as one likes, and a section as its tag, its children and an end
tag. A `Sketch` is a tree with the blanks that it is written with.

Not every writing can be read back. A delimiter may come up too early, made up of characters of a text
and of the delimiter after it; between braces an interior may look like that of a triple tag; and the
name of a variable may look like a sigil. `Legible` excludes just that. What is left is read back as the
tree that was written, for all delimiters (`readFrom_write`).

The proof goes through the writing from the left. `Adds` says what a part of a source contributes to the
reading, whatever follows, and there is a rule for each form that a part can have.
-/

set_option autoImplicit false

namespace Stencil

open Text

/-! ## Trees that can be written -/

/-- No text follows directly on another one. -/
def Spaced (nodes : List Node) : Prop :=
  nodes.IsChain fun node next => ¬ (node.isText = true ∧ next.isText = true)

/-- A tree as it can come out of a source: texts are not empty, only sections have children, and other
than texts there are tags with trimmed names that are part of the tree. -/
inductive Node.Regular : Node → Prop
  | text {content : String} {position : Int} (hne : content ≠ "") :
    Node.Regular ⟨.text content position, []⟩
  | leaf {tag : Tag} (hb : tag.isSectionBegin = false) (he : tag.type ≠ .sectionEnd)
    (hs : tag.type ≠ .switch) (hi : tag.type ≠ .invalid)
    (hn : trim tag.name.toList = tag.name.toList) : Node.Regular ⟨.tag tag, []⟩
  | block {tag : Tag} {children : List Node} (hb : tag.isSectionBegin = true)
    (hn : trim tag.name.toList = tag.name.toList) (hc : ∀ child ∈ children, Node.Regular child)
    (ha : Spaced children) : Node.Regular ⟨.tag tag, children⟩

/-- A forest of such trees. -/
structure RegularForest (nodes : List Node) : Prop where
  every : ∀ node ∈ nodes, node.Regular
  spaced : Spaced nodes

mutual

/-- The tree without the positions of its nodes. -/
def Node.unplaced : Node → Node
  | ⟨.root, children⟩ => ⟨.root, Node.unplacedAll children⟩
  | ⟨.text content _, children⟩ => ⟨.text content 0, Node.unplacedAll children⟩
  | ⟨.tag named, children⟩ => ⟨.tag { named with position := 0 }, Node.unplacedAll children⟩

def Node.unplacedAll : List Node → List Node
  | [] => []
  | node :: rest => node.unplaced :: Node.unplacedAll rest

end

/-! ## Writing -/

/-- The character that a type of tag is written with, if there is one. -/
def TagType.sigil : TagType → List Char
  | .sectionBegin => ['#']
  | .invertedBegin => ['^']
  | .sectionEnd => ['/']
  | .inclusion => ['>']
  | .unescaped => ['&']
  | .comment => ['!']
  | _ => []

/-- The blanks in a tag: before the sigil, between it and the name, and after the name. -/
structure Padding where
  before : List Char
  between : List Char
  after : List Char
  blank_before : Blank before
  blank_between : Blank between
  blank_after : Blank after

/-- What is written between the delimiters of a tag. -/
def Padding.interior (padding : Padding) (type : TagType) (name : String) : List Char :=
  padding.before ++ type.sigil ++ padding.between ++ name.toList ++ padding.after

def writeTag (pair : Delimiters) (interior : List Char) : List Char :=
  pair.opening ++ interior ++ pair.closing

/-- A tree with the blanks in its tags and, for sections, in their end tags. -/
structure Sketch where
  label : Label
  padding : Padding
  ending : Padding
  children : List Sketch

namespace Sketch

mutual

/-- The tree that is sketched. -/
def node : Sketch → Node
  | ⟨label, _, _, children⟩ => ⟨label, nodes children⟩

def nodes : List Sketch → List Node
  | [] => []
  | sketch :: rest => sketch.node :: nodes rest

end

mutual

def write (pair : Delimiters) : Sketch → List Char
  | ⟨.root, _, _, _⟩ => []
  | ⟨.text content _, _, _, _⟩ => content.toList
  | ⟨.tag tag, padding, ending, children⟩ =>
    writeTag pair (padding.interior tag.type tag.name) ++
      if tag.isSectionBegin then
        writeAll pair children ++ writeTag pair (ending.interior .sectionEnd tag.name)
      else []

def writeAll (pair : Delimiters) : List Sketch → List Char
  | [] => []
  | sketch :: rest => sketch.write pair ++ writeAll pair rest

end

mutual

/-- The tree with its nodes placed where they are written, from this offset on. -/
def place (pair : Delimiters) (offset : Nat) : Sketch → Node
  | ⟨.root, _, _, children⟩ => ⟨.root, placeAll pair offset children⟩
  | ⟨.text content _, _, _, children⟩ => ⟨.text content offset, placeAll pair offset children⟩
  | ⟨.tag tag, padding, _, children⟩ =>
    ⟨.tag { tag with position := offset }, placeAll pair
      (offset + (writeTag pair (padding.interior tag.type tag.name)).length) children⟩

def placeAll (pair : Delimiters) (offset : Nat) : List Sketch → List Node
  | [] => []
  | sketch :: rest =>
    sketch.place pair offset :: placeAll pair (offset + (sketch.write pair).length) rest

end

end Sketch

/-! ## Writings that can be read back -/

/-- Between the delimiters, this is read as the interior of a tag: the closing delimiter is not found
too early, and there is no third brace. -/
structure LegibleInterior (pair : Delimiters) (interior : List Char) : Prop where
  closing : FirstAt pair.closing (interior ++ pair.closing) interior []
  third : pair = .braces → interior.head? ≠ some '{'

/-- A name that stands for itself: it does not start with a sigil, nor is it between equal signs. -/
def Plain (name : List Char) : Prop :=
  ∀ c rest, name = c :: rest → TagType.ofSigil? c = none ∧ ¬ (c = '=' ∧ rest.getLast? = some '=')

/-- The text is read as a text: before a tag, the opening delimiter is not found too early, and at the
end of the source, it is not found. -/
def LegibleText (pair : Delimiters) (isLast : Bool) (content : List Char) : Prop :=
  if isLast then ¬ pair.opening <:+: content
  else FirstAt pair.opening (content ++ pair.opening) content []

namespace Sketch

mutual

/-- What is written can be read back; `isLast` if the source ends with it. -/
def Legible (pair : Delimiters) (isLast : Bool) : Sketch → Prop
  | ⟨.root, _, _, _⟩ => True
  | ⟨.text content _, _, _, _⟩ => LegibleText pair isLast content.toList
  | ⟨.tag tag, padding, ending, children⟩ =>
    LegibleInterior pair (padding.interior tag.type tag.name) ∧
      (tag.type = .escaped → Plain tag.name.toList) ∧
      (tag.isSectionBegin = true →
        LegibleInterior pair (ending.interior .sectionEnd tag.name) ∧ LegibleAll pair false children)

def LegibleAll (pair : Delimiters) (isLast : Bool) : List Sketch → Prop
  | [] => True
  | sketch :: rest => sketch.Legible pair (isLast && rest.isEmpty) ∧ LegibleAll pair isLast rest

end

end Sketch

namespace Template

open Draft

/-! ## What a part of a source adds -/

/-- Read in front of what follows, this part of a source adds these nodes, and reading goes on after
it with the same delimiters. -/
structure Adds (pair : Delimiters) (offset : Nat) (written more : List Char) (nodes : List Node) :
    Prop where
  exists_read : ∃ read drafts,
    Cursor.segments ⟨pair, offset, written ++ more⟩ =
      read ++ Cursor.segments ⟨pair, offset + written.length, more⟩ ∧
    (∀ segment ∈ read, segment.next = pair ∧ switchesOf [segment] = []) ∧
    (∀ openLevels body rest,
      nest openLevels body (read ++ rest) = nest openLevels (drafts.reverse ++ body) rest) ∧
    unclosedIn? drafts = none ∧ toNodes drafts = nodes

variable {pair : Delimiters} {offset : Nat} {written others more : List Char}
  {nodes siblings : List Node}

theorem adds_nil (pair : Delimiters) (offset : Nat) (more : List Char) :
    Adds pair offset [] more [] :=
  ⟨[], [], rfl, fun _ hm => absurd hm List.not_mem_nil, fun _ _ _ => rfl, rfl, rfl⟩

theorem toNodes_append (drafts others : List Draft) :
    toNodes (drafts ++ others) = toNodes drafts ++ toNodes others := by
  induction drafts with
  | nil => rfl
  | cons draft rest ih => rw [List.cons_append, toNodes, ih, toNodes, List.cons_append]

theorem Adds.append (h : Adds pair offset written (others ++ more) nodes)
    (ho : Adds pair (offset + written.length) others more siblings) :
    Adds pair offset (written ++ others) more (nodes ++ siblings) := by
  obtain ⟨read, drafts, hread, hkept, hnest, hclosed, rfl⟩ := h
  obtain ⟨later, besides, hlater, hkept', hnest', hclosed', rfl⟩ := ho
  refine ⟨read ++ later, drafts ++ besides, ?_, ?_, ?_, ?_, toNodes_append drafts besides⟩
  · rw [List.append_assoc, hread, hlater, List.append_assoc, List.length_append, Nat.add_assoc]
  · exact List.forall_mem_append.2 ⟨hkept, hkept'⟩
  · intro openLevels body rest
    rw [List.append_assoc, hnest, hnest', List.reverse_append, List.append_assoc]
  · rw [unclosedIn?_append, hclosed, hclosed']
    rfl

/-! ## Texts -/

/-- What a text can be followed by: another tag, or nothing if the source ends with it. -/
def Continues (pair : Delimiters) (isLast : Bool) (more : List Char) : Prop :=
  if isLast then more = [] else ∃ after, more = pair.opening ++ after

theorem segments_nil (pair : Delimiters) (offset : Nat) :
    Cursor.segments ⟨pair, offset, []⟩ = [] := by
  rw [Cursor.segments]
  rfl

theorem firstAt_opening (pair : Delimiters) (after : List Char) :
    FirstAt pair.opening (pair.opening ++ after) [] after :=
  ⟨rfl, fun n hn => absurd hn (Nat.not_lt_zero n)⟩

/-- A text is one segment, and then comes the tag after it. -/
theorem segments_text {content : List Char} (hne : content ≠ []) {isLast : Bool}
    (hl : LegibleText pair isLast content) (hm : Continues pair isLast more) :
    Cursor.segments ⟨pair, offset, content ++ more⟩ =
      ⟨offset, content, pair, pair, .text content⟩ ::
        Cursor.segments ⟨pair, offset + content.length, more⟩ := by
  have hempty : content.isEmpty = false := by simpa using hne
  cases isLast with
  | true =>
    obtain rfl : more = [] := hm
    have hn : ¬ pair.opening <:+: content := hl
    rw [Cursor.segments_eq, List.append_nil, Cursor.step_of_text hn, segments_nil]
    simp [Cursor.textSegment, hempty]
  | false =>
    obtain ⟨after, rfl⟩ := hm
    have hf : FirstAt pair.opening (content ++ pair.opening) content [] := hl
    have hcut := cut_eq_some_iff.2 (hf.append after)
    rw [List.append_assoc] at hcut
    have hcut' := cut_eq_some_iff.2 (firstAt_opening pair after)
    -- the step that reads the text reads the tag after it too, as the step from there does
    have hstep : Cursor.step ⟨pair, offset, content ++ (pair.opening ++ after)⟩ =
        (⟨offset, content, pair, pair, .text content⟩ ::
          (Cursor.step ⟨pair, offset + content.length, pair.opening ++ after⟩).1,
          (Cursor.step ⟨pair, offset + content.length, pair.opening ++ after⟩).2) := by
      simp only [Cursor.step, hcut, hcut', List.length_nil, Nat.add_zero, Cursor.textSegment, hempty,
        Bool.false_eq_true, if_false, List.isEmpty_nil, if_true, List.nil_append]
      cases bound? pair after with
      | none => rfl
      | some bounded =>
        dsimp only
        split <;> rfl
    rw [Cursor.segments_eq, hstep, List.cons_append, ← Cursor.segments_eq]

theorem adds_text {content : String} (hne : content ≠ "") {isLast : Bool}
    (hl : LegibleText pair isLast content.toList) (hm : Continues pair isLast more) :
    Adds pair offset content.toList more [⟨.text content offset, []⟩] := by
  have hnil : content.toList ≠ [] := by simpa using hne
  refine ⟨[⟨offset, content.toList, pair, pair, .text content.toList⟩],
    [.leaf (.text content offset)], segments_text hnil hl hm, ?_, ?_, rfl, rfl⟩
  · exact List.forall_mem_singleton.2 ⟨rfl, rfl⟩
  · intro openLevels body rest
    rw [List.singleton_append, nest_cons_of_text rfl, String.ofList_toList]
    rfl

/-! ## Tags -/

theorem not_triple_of_legible {interior : List Char} (hl : LegibleInterior pair interior)
    (more : List Char) :
    ¬ (pair = .braces ∧
      pair.opening ++ ['{'] <+: pair.opening ++ (interior ++ pair.closing ++ more)) := by
  rintro ⟨rfl, hp⟩
  rw [List.prefix_append_right_inj, List.append_assoc] at hp
  obtain ⟨rest, hrest⟩ := hp
  cases interior with
  | nil => cases hrest
  | cons c interior =>
    cases hrest
    exact hl.third rfl rfl

/-- A tag is one segment, and reading goes on after it. -/
theorem segments_writeTag {interior : List Char} (hl : LegibleInterior pair interior) {tag : Tag}
    (ht : Tag.classify (trim interior) false offset = tag) (hs : tag.type ≠ .switch)
    (more : List Char) :
    Cursor.segments ⟨pair, offset, writeTag pair interior ++ more⟩ =
      ⟨offset, writeTag pair interior, pair, pair, .tag tag⟩ ::
        Cursor.segments ⟨pair, offset + (writeTag pair interior).length, more⟩ := by
  subst ht
  have hsource : writeTag pair interior ++ more =
      pair.opening ++ (interior ++ pair.closing ++ more) := by
    simp only [writeTag, List.append_assoc]
  have hb : Bounds pair (pair.opening ++ (interior ++ pair.closing ++ more))
      ⟨false, interior, writeTag pair interior, more⟩ := by
    refine ⟨⟨interior ++ pair.closing ++ more, ⟨?_, rfl⟩, hl.closing.append more⟩, rfl⟩
    exact iff_of_false Bool.false_ne_true (not_triple_of_legible hl more)
  have hstep := @Cursor.step_of_tag ⟨pair, offset, pair.opening ++ (interior ++ pair.closing ++ more)⟩
    [] _ _ pair (firstAt_opening pair _) hb (.kept hs)
  rw [hsource, Cursor.segments_of_step hstep]
  rfl

theorem ofSigil?_of_sigil {type : TagType} {c : Char} {rest : List Char}
    (h : type.sigil = c :: rest) :
    TagType.ofSigil? c = some type ∧ isBlank c = false ∧ c ≠ '=' ∧ rest = [] := by
  cases type <;> cases h <;> decide

/-- The blanks around them do not change what the sigil and the name are read as. -/
theorem classify_interior (padding : Padding) {tag : Tag} (hs : tag.type ≠ .switch)
    (hi : tag.type ≠ .invalid) (hn : trim tag.name.toList = tag.name.toList)
    (hp : tag.type = .escaped → Plain tag.name.toList) (position : Int) :
    Tag.classify (trim (padding.interior tag.type tag.name)) false position =
      { tag with position := position } := by
  obtain ⟨name, type, _⟩ := tag
  dsimp only at hs hi hn hp ⊢
  have hname : trim (padding.between ++ name.toList) = name.toList := by
    rw [trim_blanks_append padding.blank_between, hn]
  have htrim : trim (padding.interior type name) =
      trim (type.sigil ++ (padding.between ++ name.toList)) := by
    rw [Padding.interior, trim_append_blanks _ padding.blank_after, List.append_assoc,
      List.append_assoc, trim_blanks_append padding.blank_before]
  rw [htrim]
  -- with a sigil the first character decides, and without one the name must not look as if it had one
  cases hsigil : type.sigil with
  | cons c rest =>
    obtain ⟨htype, hblank, hne, rfl⟩ := ofSigil?_of_sigil hsigil
    rw [List.singleton_append, trim_cons hblank]
    have hswitch : (c == '=') = false := beq_eq_false_iff_ne.2 hne
    simp only [Tag.classify, Bool.false_eq_true, if_false, hswitch, Bool.false_and, htype,
      trim_trimEnd, hname, String.ofList_toList]
  | nil =>
    obtain rfl : type = .escaped := by
      cases type with
      | escaped => rfl
      | switch => exact absurd rfl hs
      | invalid => exact absurd rfl hi
      | unescaped | sectionBegin | sectionEnd | invertedBegin | comment | inclusion => cases hsigil
    rw [List.nil_append, hname]
    cases hc : name.toList with
    | nil =>
      have : name = "" := by simpa using hc
      subst this
      rfl
    | cons c rest =>
      obtain ⟨hsigil, hswitch⟩ := hp rfl c rest hc
      have hswitch : (c == '=' && rest.getLast? == some '=') = false := by
        simpa using hswitch
      simp only [Tag.classify, Bool.false_eq_true, if_false, hswitch, hsigil]
      rw [← hc, String.ofList_toList]

/-- A tag that is read back as itself, whatever surrounds it. -/
theorem exists_segments_tag {tag : Tag} {padding : Padding}
    (hl : LegibleInterior pair (padding.interior tag.type tag.name)) (hs : tag.type ≠ .switch)
    (hi : tag.type ≠ .invalid) (hn : trim tag.name.toList = tag.name.toList)
    (hp : tag.type = .escaped → Plain tag.name.toList) (offset : Nat) (more : List Char) :
    ∃ segment : Segment, segment.token = .tag { tag with position := offset } ∧
      segment.next = pair ∧ switchesOf [segment] = [] ∧
      Cursor.segments ⟨pair, offset, writeTag pair (padding.interior tag.type tag.name) ++ more⟩ =
        segment :: Cursor.segments
          ⟨pair, offset + (writeTag pair (padding.interior tag.type tag.name)).length, more⟩ := by
  have hclassify := classify_interior padding hs hi hn hp offset
  refine ⟨_, rfl, rfl, ?_, segments_writeTag hl hclassify hs more⟩
  simp [switchesOf, hs]

theorem adds_leaf {tag : Tag} {padding : Padding} (hr : Node.Regular ⟨.tag tag, []⟩)
    (hb : tag.isSectionBegin = false) (hp : tag.type = .escaped → Plain tag.name.toList)
    (hl : LegibleInterior pair (padding.interior tag.type tag.name)) (offset : Nat)
    (more : List Char) :
    Adds pair offset (writeTag pair (padding.interior tag.type tag.name)) more
      [⟨.tag { tag with position := offset }, []⟩] := by
  cases hr with
  | block hs => rw [hb] at hs; cases hs
  | leaf _ he hs hi hn =>
    obtain ⟨segment, htoken, hnext, hswitch, hread⟩ :=
      exists_segments_tag hl hs hi hn hp offset more
    refine ⟨[segment], [.leaf (.tag { tag with position := offset })], hread,
      List.forall_mem_singleton.2 ⟨hnext, hswitch⟩, ?_, rfl, rfl⟩
    intro openLevels body rest
    have he : tag.isSectionEnd = false := beq_eq_false_iff_ne.2 he
    rw [List.singleton_append, nest_cons_of_other htoken hb he]
    rfl

theorem isSectionBegin_iff {tag : Tag} :
    tag.isSectionBegin = true ↔ tag.type = .sectionBegin ∨ tag.type = .invertedBegin := by
  simp [Tag.isSectionBegin]

/-- A section is its tag, what its children add, and an end tag with its name. -/
theorem adds_section {tag : Tag} {padding ending : Padding} (hb : tag.isSectionBegin = true)
    (hn : trim tag.name.toList = tag.name.toList)
    (hl : LegibleInterior pair (padding.interior tag.type tag.name))
    (he : LegibleInterior pair (ending.interior .sectionEnd tag.name)) {offset : Nat}
    (hc : Adds pair (offset + (writeTag pair (padding.interior tag.type tag.name)).length) written
      (writeTag pair (ending.interior .sectionEnd tag.name) ++ more) nodes) :
    Adds pair offset (writeTag pair (padding.interior tag.type tag.name) ++
        (written ++ writeTag pair (ending.interior .sectionEnd tag.name))) more
      [⟨.tag { tag with position := offset }, nodes⟩] := by
  have htype : tag.type ≠ .switch ∧ tag.type ≠ .invalid ∧ tag.type ≠ .escaped := by
    rcases isSectionBegin_iff.1 hb with h | h <;> simp [h]
  let start := offset + (writeTag pair (padding.interior tag.type tag.name)).length
  let closing : Tag := { tag with type := .sectionEnd }
  obtain ⟨first, hfirst, hfnext, hfswitch, hfread⟩ :=
    exists_segments_tag hl htype.1 htype.2.1 hn (fun h => absurd h htype.2.2) offset
      (written ++ (writeTag pair (ending.interior .sectionEnd tag.name) ++ more))
  -- the children are read from where the begin ends, and the end tag from where they end
  obtain ⟨read, drafts, hread, hkept, hnest, hclosed, rfl⟩ := hc
  obtain ⟨last, hlast, hlnext, hlswitch, hlread⟩ :=
    @exists_segments_tag pair closing ending he nofun nofun hn nofun (start + written.length) more
  refine ⟨first :: (read ++ [last]), [.block { tag with position := offset } drafts
    (some { closing with position := ↑(start + written.length) })], ?_, ?_, ?_, ?_, ?_⟩
  · have hsource : writeTag pair (padding.interior tag.type tag.name) ++
        (written ++ writeTag pair (ending.interior .sectionEnd tag.name)) ++ more =
        writeTag pair (padding.interior tag.type tag.name) ++
          (written ++ (writeTag pair (ending.interior .sectionEnd tag.name) ++ more)) := by
      simp only [List.append_assoc]
    rw [hsource, hfread, hread, hlread]
    simp only [List.length_append, Nat.add_assoc, List.cons_append, List.append_assoc,
      List.nil_append, start, closing]
  · refine List.forall_mem_cons.2 ⟨⟨hfnext, hfswitch⟩, List.forall_mem_append.2 ⟨hkept, ?_⟩⟩
    exact List.forall_mem_singleton.2 ⟨hlnext, hlswitch⟩
  · intro openLevels body rest
    rw [List.cons_append, List.append_assoc, nest_cons_of_begin hfirst hb, hnest,
      List.singleton_append, nest_cons_of_end hlast rfl, List.append_nil, List.reverse_reverse]
    rfl
  · rw [unclosedIn?_block, hclosed, openSection?, isClosed]
    simp [closing]
  · rfl

/-! ## Whole trees -/

theorem nodes_eq_nil {sketches : List Sketch} (h : Sketch.nodes sketches = []) : sketches = [] := by
  cases sketches with
  | nil => rfl
  | cons sketch rest => rw [Sketch.nodes] at h; cases h

/-- The three forms of a sketch. -/
theorem sketch_cases {label : Label} {children : List Sketch}
    (h : Node.Regular ⟨label, Sketch.nodes children⟩) :
    (∃ content position, label = .text content position ∧ content ≠ "" ∧ children = []) ∨
    (∃ tag, label = .tag tag ∧ Node.Regular ⟨.tag tag, []⟩ ∧ tag.isSectionBegin = false ∧
      children = []) ∨
    ∃ tag, label = .tag tag ∧ tag.isSectionBegin = true ∧ trim tag.name.toList = tag.name.toList ∧
      RegularForest (Sketch.nodes children) := by
  generalize hnodes : Sketch.nodes children = nodes at h
  cases h with
  | text hne => exact .inl ⟨_, _, rfl, hne, nodes_eq_nil hnodes⟩
  | leaf hb he hs hi hn =>
    exact .inr (.inl ⟨_, rfl, .leaf hb he hs hi hn, hb, nodes_eq_nil hnodes⟩)
  | block hb hn hc ha => exact .inr (.inr ⟨_, rfl, hb, hn, ⟨hc, ha⟩⟩)

/-- A regular tree that is no text starts with a tag. -/
theorem exists_write_eq_opening (pair : Delimiters) {sketch : Sketch} (hr : sketch.node.Regular)
    (ht : sketch.node.isText = false) : ∃ after, sketch.write pair = pair.opening ++ after := by
  obtain ⟨label, padding, ending, children⟩ := sketch
  rw [Sketch.node] at hr ht
  rcases sketch_cases hr with ⟨_, _, rfl, _⟩ | ⟨tag, rfl, _⟩ | ⟨tag, rfl, _⟩
  · cases ht
  · rw [Sketch.write, writeTag, List.append_assoc, List.append_assoc]
    exact ⟨_, rfl⟩
  · rw [Sketch.write, writeTag, List.append_assoc, List.append_assoc]
    exact ⟨_, rfl⟩

/-- Behind a text in a regular forest come a tag, or what follows the forest. -/
theorem continues_writeAll {isLast : Bool} {sketch : Sketch} {rest : List Sketch}
    (hr : RegularForest (Sketch.nodes (sketch :: rest))) (hm : Continues pair isLast more)
    (ht : sketch.node.isText = true) :
    Continues pair (isLast && rest.isEmpty) (Sketch.writeAll pair rest ++ more) := by
  cases rest with
  | nil =>
    rw [List.isEmpty_nil, Bool.and_true]
    exact hm
  | cons next rest =>
    have hspaced : ¬ (sketch.node.isText = true ∧ next.node.isText = true) :=
      (List.isChain_cons_cons.1 hr.spaced).1
    have hnext : next.node.isText = false := by simpa [ht] using hspaced
    have hregular : next.node.Regular :=
      hr.every _ (List.mem_cons_of_mem _ List.mem_cons_self)
    obtain ⟨after, hw⟩ := exists_write_eq_opening pair hregular hnext
    rw [List.isEmpty_cons, Bool.and_false]
    refine ⟨after ++ (Sketch.writeAll pair rest ++ more), ?_⟩
    rw [Sketch.writeAll, hw, List.append_assoc, List.append_assoc]

mutual

theorem adds_write : (sketch : Sketch) → sketch.node.Regular → ∀ {isLast : Bool},
    sketch.Legible pair isLast → ∀ (offset : Nat) {more : List Char},
    (sketch.node.isText = true → Continues pair isLast more) →
    Adds pair offset (sketch.write pair) more [sketch.place pair offset]
  | ⟨label, padding, ending, children⟩, hr, isLast, hl, offset, more, hm => by
    rw [Sketch.node] at hr
    rcases sketch_cases hr with
      ⟨content, position, rfl, hne, rfl⟩ | ⟨tag, rfl, hr, hb, rfl⟩ | ⟨tag, rfl, hb, hn, hc⟩
    · rw [Sketch.Legible] at hl
      rw [Sketch.write, Sketch.place, Sketch.placeAll]
      exact adds_text hne hl (hm rfl)
    · rw [Sketch.Legible] at hl
      rw [Sketch.write, Sketch.place, Sketch.placeAll, if_neg (by rw [hb]; exact Bool.false_ne_true),
        List.append_nil]
      exact adds_leaf hr hb hl.2.1 hl.1 offset more
    · rw [Sketch.Legible] at hl
      obtain ⟨hinterior, _, hrest⟩ := hl
      obtain ⟨hending, hchildren⟩ := hrest hb
      rw [Sketch.write, Sketch.place, if_pos hb]
      -- the children are followed by the end tag, so the source does not end with them
      have hmore : Continues pair false
          (writeTag pair (ending.interior .sectionEnd tag.name) ++ more) := by
        refine ⟨ending.interior .sectionEnd tag.name ++ (pair.closing ++ more), ?_⟩
        simp only [writeTag, List.append_assoc]
      exact adds_section hb hn hinterior hending (adds_writeAll children hc hchildren _ hmore)

theorem adds_writeAll : (sketches : List Sketch) → RegularForest (Sketch.nodes sketches) →
    ∀ {isLast : Bool}, Sketch.LegibleAll pair isLast sketches → ∀ (offset : Nat) {more : List Char},
    Continues pair isLast more →
    Adds pair offset (Sketch.writeAll pair sketches) more (Sketch.placeAll pair offset sketches)
  | [], _, _, _, offset, more, _ => by
    rw [Sketch.writeAll, Sketch.placeAll]
    exact adds_nil pair offset more
  | sketch :: rest, hr, isLast, hl, offset, more, hm => by
    rw [Sketch.LegibleAll] at hl
    obtain ⟨hfirst, hrest⟩ := List.forall_mem_cons.1 hr.every
    have hforest : RegularForest (Sketch.nodes rest) := ⟨hrest, hr.spaced.tail⟩
    rw [Sketch.writeAll, Sketch.placeAll]
    exact (adds_write sketch hfirst hl.1 offset (continues_writeAll hr hm)).append
      (adds_writeAll rest hforest hl.2 _ hm)

end

mutual

/-- Placing the nodes of a sketch leaves everything else about them as it is. -/
theorem unplaced_place (pair : Delimiters) : (sketch : Sketch) → (offset : Nat) →
    (sketch.place pair offset).unplaced = sketch.node.unplaced
  | ⟨.root, _, _, children⟩, offset => by
    rw [Sketch.place, Sketch.node, Node.unplaced, Node.unplaced, unplacedAll_placeAll pair children]
  | ⟨.text _ _, _, _, children⟩, offset => by
    rw [Sketch.place, Sketch.node, Node.unplaced, Node.unplaced, unplacedAll_placeAll pair children]
  | ⟨.tag _, _, _, children⟩, offset => by
    rw [Sketch.place, Sketch.node, Node.unplaced, Node.unplaced, unplacedAll_placeAll pair children]

theorem unplacedAll_placeAll (pair : Delimiters) : (sketches : List Sketch) → (offset : Nat) →
    Node.unplacedAll (Sketch.placeAll pair offset sketches) =
      Node.unplacedAll (Sketch.nodes sketches)
  | [], _ => by rw [Sketch.placeAll, Sketch.nodes]
  | sketch :: rest, offset => by
    rw [Sketch.placeAll, Sketch.nodes, Node.unplacedAll, Node.unplacedAll, unplaced_place pair sketch,
      unplacedAll_placeAll pair rest]

end

theorem switchesOf_eq_nil {read : List Segment} (h : ∀ segment ∈ read, switchesOf [segment] = []) :
    switchesOf read = [] := by
  induction read with
  | nil => rfl
  | cons segment rest ih =>
    obtain ⟨hfirst, hrest⟩ := List.forall_mem_cons.1 h
    have hcons : switchesOf (segment :: rest) = switchesOf [segment] ++ switchesOf rest :=
      List.filterMap_append (l := [segment])
    rw [hcons, hfirst, ih hrest]
    rfl

/-- **Writing a tree and reading it gives the tree back**, under any delimiters. -/
theorem readFrom_write (pair : Delimiters) (sketches : List Sketch)
    (hr : RegularForest (Sketch.nodes sketches)) (hl : Sketch.LegibleAll pair true sketches) :
    let source := String.ofList (Sketch.writeAll pair sketches)
    readFrom pair source = ⟨pair, [], .ok ⟨Sketch.placeAll pair 0 sketches, source⟩⟩ ∧
      Node.unplacedAll (Sketch.placeAll pair 0 sketches) =
        Node.unplacedAll (Sketch.nodes sketches) := by
  intro source
  refine ⟨?_, unplacedAll_placeAll pair sketches 0⟩
  obtain ⟨read, drafts, hread, hkept, hnest, hclosed, hnodes⟩ :=
    @adds_writeAll pair sketches hr true hl 0 [] rfl
  rw [List.append_nil, segments_nil, List.append_nil] at hread
  have hsegments : segments pair source.toList = read := by
    rw [String.toList_ofList]
    exact hread
  have hdrafts : nest [] [] read = .ok drafts := by
    have h := hnest [] [] []
    rw [List.append_nil, List.append_nil] at h
    rw [h, nest, abandon, List.reverse_reverse]
  -- nothing that was written switches the delimiters, so the last segment leaves them as they were
  have hdelimiters : delimitersAfter pair read = pair := by
    rw [delimitersAfter]
    cases hlast : read.getLast? with
    | none => rfl
    | some segment => exact (hkept segment (List.mem_of_getLast? hlast)).1
  have hswitches := switchesOf_eq_nil fun segment hm => (hkept segment hm).2
  simp only [readFrom, hsegments, hdrafts, hdelimiters, hswitches, close, hclosed, hnodes]

/-- Delimiters that have a character in common. -/
def overlapping : Delimiters := ⟨['a', 'b'], ['b'], by simp, by simp⟩

def tight : Padding := ⟨[], [], [], nofun, nofun, nofun⟩

def loose : Padding :=
  ⟨['\n'], [' ', '\t'], [' '], List.forall_mem_singleton.2 rfl,
    List.forall_mem_cons.2 ⟨rfl, List.forall_mem_singleton.2 rfl⟩, List.forall_mem_singleton.2 rfl⟩

/-- A text that ends like the delimiter after it starts, a section over a variable, and a text that
goes on where a delimiter ended. -/
def sampleSketches : List Sketch :=
  [⟨.text "xa" 0, tight, tight, []⟩,
    ⟨.tag ⟨"s", .sectionBegin, 0⟩, loose, tight, [⟨.tag ⟨"n", .escaped, 0⟩, tight, tight, []⟩]⟩,
    ⟨.text "b" 0, tight, tight, []⟩]

theorem readFrom_write_sample :
    readFrom overlapping "xaab\n# \ts babnbab/sbb" =
      ⟨overlapping, [], .ok ⟨[⟨.text "xa" 0, []⟩,
        ⟨.tag ⟨"s", .sectionBegin, 2⟩, [⟨.tag ⟨"n", .escaped, 11⟩, []⟩]⟩, ⟨.text "b" 20, []⟩],
        "xaab\n# \ts babnbab/sbb"⟩⟩ := by
  have hvariable : Node.Regular ⟨.tag ⟨"n", .escaped, 0⟩, []⟩ := .leaf rfl nofun nofun nofun rfl
  have hsection : Node.Regular
      ⟨.tag ⟨"s", .sectionBegin, 0⟩, [⟨.tag ⟨"n", .escaped, 0⟩, []⟩]⟩ :=
    .block rfl rfl (List.forall_mem_singleton.2 hvariable) (.singleton _)
  have hr : RegularForest (Sketch.nodes sampleSketches) := by
    refine ⟨?_, .cons_cons nofun (.cons_cons nofun (.singleton _))⟩
    exact List.forall_mem_cons.2 ⟨.text (by decide), List.forall_mem_cons.2 ⟨hsection,
      List.forall_mem_singleton.2 (.text (by decide))⟩⟩
  have hplain : Plain ['n'] := by
    rintro c rest ⟨⟩
    exact ⟨rfl, by decide⟩
  have hl : Sketch.LegibleAll overlapping true sampleSketches := by
    have htext : FirstAt ['a', 'b'] "xaab".toList "xa".toList [] := cut_eq_some_iff.1 rfl
    have hbegin : LegibleInterior overlapping "\n# \ts ".toList := ⟨cut_eq_some_iff.1 rfl, nofun⟩
    have hname : LegibleInterior overlapping ['n'] := ⟨cut_eq_some_iff.1 rfl, nofun⟩
    have hend : LegibleInterior overlapping ['/', 's'] := ⟨cut_eq_some_iff.1 rfl, nofun⟩
    have hlast : ¬ ['a', 'b'] <:+: ['b'] := by decide
    exact ⟨htext, ⟨hbegin, nofun, fun _ => ⟨hend, ⟨hname, fun _ => hplain, nofun⟩, trivial⟩⟩,
      hlast, trivial⟩
  exact (readFrom_write overlapping sampleSketches hr hl).1

end Template

end Stencil

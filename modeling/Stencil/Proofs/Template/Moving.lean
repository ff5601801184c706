import Stencil.Proofs.Template.Preorder
import Stencil.Template.Reading

/-!
# Positions play no part in reading

A document says where each of its nodes stands, and an error where it was found. Nothing else about them
depends on that. `entries` are all that nesting looks at in the segments of a source, and `assemble` is
what is made of them; whatever is done to the positions of the entries is done to those of the document
or of the error, and there it ends (`assemble_moved`).

So two sources whose entries differ in nothing but positions have documents that differ in nothing but
positions (`exists_assemble`), and so the same sequence of tags (`Document.tagSequence_moved`).
-/

set_option autoImplicit false

namespace Stencil

/-! ## Moving positions -/

def Tag.moved (f : Int → Int) (tag : Tag) : Tag := { tag with position := f tag.position }

def Label.moved (f : Int → Int) : Label → Label
  | .root => .root
  | .text content position => .text content (f position)
  | .tag named => .tag (named.moved f)

def SyntaxError.moved (f : Int → Int) : SyntaxError → SyntaxError
  | .unterminatedTag position => .unterminatedTag (f position)
  | .unmatchedSectionEnd name position => .unmatchedSectionEnd name (f position)
  | .unclosedSection name position => .unclosedSection name (f position)
  | .invalidDelimiters text position => .invalidDelimiters text (f position)

namespace Node

mutual

/-- The tree with all of its positions moved. -/
def moved (f : Int → Int) : Node → Node
  | ⟨label, children⟩ => ⟨label.moved f, movedAll f children⟩

def movedAll (f : Int → Int) : List Node → List Node
  | [] => []
  | node :: rest => node.moved f :: movedAll f rest

end

theorem tag?_moved (f : Int → Int) (node : Node) :
    (node.moved f).tag? = node.tag?.map (Tag.moved f) := by
  obtain ⟨label, children⟩ := node
  cases label <;> rfl

mutual

theorem preorder_moved (f : Int → Int) (depth : Int) : (node : Node) →
    (node.moved f).preorder depth =
      (node.preorder depth).map fun visited => (visited.1.moved f, visited.2)
  | ⟨label, children⟩ => by
    rw [moved, preorder, preorder, preorderAll_movedAll f (depth + 1) children, List.map_cons, moved]

theorem preorderAll_movedAll (f : Int → Int) (depth : Int) : (nodes : List Node) →
    preorderAll depth (movedAll f nodes) =
      (preorderAll depth nodes).map fun visited => (visited.1.moved f, visited.2)
  | [] => rfl
  | node :: rest => by
    rw [movedAll, preorderAll, preorderAll, preorder_moved f depth node,
      preorderAll_movedAll f depth rest, List.map_append]

end

end Node

theorem listedTag?_moved (f : Int → Int) (visited : Node × Int) :
    listedTag? (visited.1.moved f, visited.2) = listedTag? visited := by
  unfold listedTag?
  rw [Node.tag?_moved, Option.map_map]
  rfl

/-- The sequence of tags does not tell where they stand. -/
theorem Document.tagSequence_moved (f : Int → Int) (nodes : List Node) (source other : String) :
    (⟨Node.movedAll f nodes, source⟩ : Document).tagSequence =
      (⟨nodes, other⟩ : Document).tagSequence := by
  rw [tagSequence_eq, tagSequence_eq]
  dsimp only
  rw [Node.preorderAll_movedAll, List.filterMap_map]
  exact congrArg (List.filterMap · _) (funext (listedTag?_moved f))

namespace Template

namespace Draft

mutual

def moved (f : Int → Int) : Draft → Draft
  | .leaf label => .leaf (label.moved f)
  | .block opening body closing =>
    .block (opening.moved f) (movedAll f body) (closing.map (Tag.moved f))

def movedAll (f : Int → Int) : List Draft → List Draft
  | [] => []
  | draft :: rest => draft.moved f :: movedAll f rest

end

def Level.moved (f : Int → Int) (level : Level) : Level :=
  ⟨level.opening.moved f, movedAll f level.earlier⟩

theorem movedAll_append (f : Int → Int) (drafts others : List Draft) :
    movedAll f (drafts ++ others) = movedAll f drafts ++ movedAll f others := by
  induction drafts with
  | nil => rfl
  | cons draft rest ih => rw [List.cons_append, movedAll, ih, movedAll, List.cons_append]

theorem movedAll_reverse (f : Int → Int) (drafts : List Draft) :
    movedAll f drafts.reverse = (movedAll f drafts).reverse := by
  induction drafts with
  | nil => rfl
  | cons draft rest ih =>
    rw [List.reverse_cons, movedAll_append, ih, movedAll, movedAll, movedAll, List.reverse_cons]

mutual

theorem toNode_moved (f : Int → Int) : (draft : Draft) →
    (draft.moved f).toNode = draft.toNode.moved f
  | .leaf label => by rw [moved, toNode, toNode, Node.moved, Node.movedAll]
  | .block opening body closing => by
    rw [moved, toNode, toNode, Node.moved, toNodes_movedAll f body, Label.moved]

theorem toNodes_movedAll (f : Int → Int) : (drafts : List Draft) →
    toNodes (movedAll f drafts) = Node.movedAll f (toNodes drafts)
  | [] => rfl
  | draft :: rest => by
    rw [movedAll, toNodes, toNodes, toNode_moved f draft, toNodes_movedAll f rest, Node.movedAll]

end

theorem isClosed_moved (f : Int → Int) (opening : Tag) (closing : Option Tag) :
    isClosed (opening.moved f) (closing.map (Tag.moved f)) = isClosed opening closing := by
  cases closing <;> rfl

mutual

theorem unclosed?_moved (f : Int → Int) : (draft : Draft) →
    (draft.moved f).unclosed? = draft.unclosed?.map (Tag.moved f)
  | .leaf label => rfl
  | .block opening body closing => by
    rw [moved, unclosed?, unclosed?, isClosed_moved, unclosedIn?_movedAll f body]
    split <;> rfl

theorem unclosedIn?_movedAll (f : Int → Int) : (drafts : List Draft) →
    unclosedIn? (movedAll f drafts) = (unclosedIn? drafts).map (Tag.moved f)
  | [] => rfl
  | draft :: rest => by
    rw [movedAll, unclosedIn?, unclosedIn?, unclosed?_moved f draft, unclosedIn?_movedAll f rest]
    cases draft.unclosed? <;> rfl

end

theorem abandon_moved (f : Int → Int) (openLevels : List Level) (body : List Draft) :
    abandon (openLevels.map (Level.moved f)) (movedAll f body) =
      movedAll f (abandon openLevels body) := by
  induction openLevels generalizing body with
  | nil => rw [List.map_nil, abandon, abandon, movedAll_reverse]
  | cons level outer ih =>
    have hblock : movedAll f (.block level.opening body.reverse none :: level.earlier) =
        .block (level.opening.moved f) (movedAll f body).reverse none ::
          movedAll f level.earlier := by
      rw [movedAll, moved, movedAll_reverse]
      rfl
    rw [List.map_cons, abandon, abandon, ← ih, hblock]
    rfl

end Draft

/-! ## Entries -/

open Draft

/-- What a segment adds to a document, or what is wrong with it. -/
def Segment.entry (segment : Segment) : Except SyntaxError Label :=
  match segment.token with
  | .text content => .ok (.text (String.ofList content) segment.start)
  | .tag tag => .ok (.tag tag)
  | .fault error => .error error

/-- Nests entries into drafts, as `Draft.nest` does with segments. -/
def nestEntries (openLevels : List Level) (body : List Draft) :
    List (Except SyntaxError Label) → Except SyntaxError (List Draft)
  | [] => .ok (abandon openLevels body)
  | .error error :: _ => .error error
  | .ok .root :: rest => nestEntries openLevels (.leaf .root :: body) rest
  | .ok (.text content position) :: rest =>
    nestEntries openLevels (.leaf (.text content position) :: body) rest
  | .ok (.tag tag) :: rest =>
    if tag.isSectionBegin then nestEntries (⟨tag, body⟩ :: openLevels) [] rest
    else if tag.isSectionEnd then
      match openLevels with
      | [] => .error (.unmatchedSectionEnd tag.name tag.position)
      | level :: outer =>
        nestEntries outer (.block level.opening body.reverse (some tag) :: level.earlier) rest
    else nestEntries openLevels (.leaf (.tag tag) :: body) rest

/-- Nesting looks at nothing but the entries of segments. -/
theorem nest_eq_nestEntries (openLevels : List Level) (body : List Draft)
    (segments : List Segment) :
    (nest openLevels body segments).mapError Prod.snd =
      nestEntries openLevels body (segments.map Segment.entry) := by
  induction segments generalizing openLevels body with
  | nil => rfl
  | cons segment rest ih =>
    rw [List.map_cons, nest, Segment.entry]
    cases segment.token with
    | fault error => rfl
    | text content => exact ih openLevels _
    | tag tag =>
      unfold nestEntries
      dsimp only
      -- both ask the tag the same two questions, and neither looks at what the segment has besides
      split
      · exact ih _ _
      · split
        · cases openLevels with
          | nil => rfl
          | cons level outer => exact ih outer _
        · exact ih openLevels _

/-- A document's worth of something, or an error, with its positions moved. -/
def movedResult {α : Type} (f : Int → Int) (move : α → α) (result : Except SyntaxError α) :
    Except SyntaxError α :=
  (result.map move).mapError (SyntaxError.moved f)

/-- Whatever is done to the positions of entries is done to those of the drafts. -/
theorem nestEntries_moved (f : Int → Int) (openLevels : List Level) (body : List Draft)
    (entries : List (Except SyntaxError Label)) :
    nestEntries (openLevels.map (Level.moved f)) (movedAll f body)
        (entries.map (movedResult f (Label.moved f))) =
      movedResult f (movedAll f) (nestEntries openLevels body entries) := by
  induction entries generalizing openLevels body with
  | nil =>
    rw [List.map_nil, nestEntries, nestEntries, abandon_moved]
    rfl
  | cons entry rest ih =>
    rw [List.map_cons]
    match entry with
    | .error error => rfl
    | .ok .root => exact ih openLevels (.leaf .root :: body)
    | .ok (.text content position) => exact ih openLevels (.leaf (.text content position) :: body)
    | .ok (.tag tag) =>
      have hlabel : movedResult f (Label.moved f) (.ok (.tag tag)) = .ok (.tag (tag.moved f)) := rfl
      have hbegin : (tag.moved f).isSectionBegin = tag.isSectionBegin := rfl
      have hend : (tag.moved f).isSectionEnd = tag.isSectionEnd := rfl
      rw [hlabel]
      unfold nestEntries
      rw [hbegin, hend]
      split
      · exact ih (⟨tag, body⟩ :: openLevels) []
      · split
        · cases openLevels with
          | nil => rfl
          | cons level outer =>
            have hblock : movedAll f (.block level.opening body.reverse (some tag) :: level.earlier) =
                .block (level.opening.moved f) (movedAll f body).reverse (some (tag.moved f)) ::
                  movedAll f level.earlier := by
              rw [movedAll, moved, movedAll_reverse]
              rfl
            rw [← ih, hblock]
            rfl
        · exact ih openLevels (.leaf (.tag tag) :: body)

/-! ## Documents -/

/-- The nodes that entries make up. -/
def assemble (entries : List (Except SyntaxError Label)) : Except SyntaxError (List Node) :=
  match nestEntries [] [] entries with
  | .error error => .error error
  | .ok drafts =>
    match unclosedIn? drafts with
    | some tag => .error (.unclosedSection tag.name tag.position)
    | none => .ok (toNodes drafts)

theorem mapError_ok {ε ε' α : Type} (f : ε → ε') (answer : α) :
    (Except.ok answer : Except ε α).mapError f = .ok answer := rfl

/-- What is read is what the entries of the source make up. -/
theorem outcome_readFrom (pair : Delimiters) (source : String) :
    (readFrom pair source).outcome =
      (assemble ((segments pair source.toList).map Segment.entry)).map (⟨·, source⟩) := by
  rw [assemble, ← nest_eq_nestEntries]
  simp only [readFrom]
  cases nest [] [] (segments pair source.toList) with
  | error stop => rfl
  | ok drafts =>
    simp only [close, mapError_ok]
    cases unclosedIn? drafts <;> rfl

theorem assemble_of_readFrom {pair : Delimiters} {source : String} {document : Document}
    (h : (readFrom pair source).outcome = .ok document) :
    assemble ((segments pair source.toList).map Segment.entry) = .ok document.nodes := by
  rw [outcome_readFrom] at h
  cases ha : assemble ((segments pair source.toList).map Segment.entry) with
  | error error =>
    rw [ha] at h
    cases h
  | ok nodes =>
    rw [ha] at h
    cases h
    rfl

/-- **Whatever is done to the positions of entries is done to those of the nodes.** -/
theorem assemble_moved (f : Int → Int) (entries : List (Except SyntaxError Label)) :
    assemble (entries.map (movedResult f (Label.moved f))) =
      movedResult f (Node.movedAll f) (assemble entries) := by
  have hnest := nestEntries_moved f [] [] entries
  rw [List.map_nil, movedAll] at hnest
  rw [assemble, assemble, hnest]
  cases nestEntries [] [] entries with
  | error error => rfl
  | ok drafts =>
    have hok : movedResult f (movedAll f) (.ok drafts) = .ok (movedAll f drafts) := rfl
    simp only [hok, unclosedIn?_movedAll, toNodes_movedAll]
    cases unclosedIn? drafts <;> rfl

/-- Entries that differ in nothing but their positions make up nodes that differ in nothing but
theirs. -/
theorem exists_assemble (f g : Int → Int) {entries others : List (Except SyntaxError Label)}
    (h : entries.map (movedResult f (Label.moved f)) = others.map (movedResult g (Label.moved g)))
    {nodes : List Node} (ha : assemble entries = .ok nodes) :
    ∃ again, assemble others = .ok again ∧ Node.movedAll g again = Node.movedAll f nodes := by
  have heq : movedResult g (Node.movedAll g) (assemble others) = .ok (Node.movedAll f nodes) := by
    rw [← assemble_moved, ← h, assemble_moved, ha]
    rfl
  cases hothers : assemble others with
  | error error =>
    rw [hothers] at heq
    cases heq
  | ok again =>
    rw [hothers] at heq
    exact ⟨again, rfl, Except.ok.inj heq⟩

end Template

end Stencil

import Stencil.Proofs.Template.Depths
import Stencil.Proofs.Template.Preorder

/-!
# What the sequence of tags tells

The sequence of tags of a document leaves out texts and positions, and it tells nesting by depths only.
`Outline` is what it can tell at best: a forest of types and names. It does tell all of that, as long as
nothing is nested but under tags (`tagSequence_eq_iff`).

An outline is read back from its entries from the left. What is under a tag goes on as long as the entries are
deeper than the tag, so wherever such a list stands, it can be told where it ends (`eq_of_entriesAll_append`).
-/

set_option autoImplicit false

namespace Stencil

/-- A tag with the tags under it, and nothing else. -/
structure Outline where
  type : TagType
  name : String
  children : List Outline
deriving Repr

namespace Outline

/-- An entry in a sequence of tags: depth, type and name. -/
abbrev Entry := Int × TagType × String

mutual

def entries (depth : Int) : Outline → List Entry
  | ⟨type, name, children⟩ => (depth, type, name) :: entriesAll (depth + 1) children

/-- The sequence of tags that a forest of outlines has at this depth. -/
def entriesAll (depth : Int) : List Outline → List Entry
  | [] => []
  | outline :: rest => entries depth outline ++ entriesAll depth rest

end

theorem entriesAll_nil_append (depth : Int) (more : List Entry) :
    entriesAll depth [] ++ more = more := rfl

theorem entriesAll_cons_append (depth : Int) (type : TagType) (name : String)
    (children rest : List Outline) (more : List Entry) :
    entriesAll depth (⟨type, name, children⟩ :: rest) ++ more =
      (depth, type, name) ::
        (entriesAll (depth + 1) children ++ (entriesAll depth rest ++ more)) := by
  rw [entriesAll, entries, List.cons_append, List.cons_append, List.append_assoc]

theorem entriesAll_append (depth : Int) (outlines others : List Outline) :
    entriesAll depth (outlines ++ others) = entriesAll depth outlines ++ entriesAll depth others := by
  induction outlines with
  | nil => rfl
  | cons outline rest ih => rw [List.cons_append, entriesAll, entriesAll, ih, List.append_assoc]

/-- These entries start above this depth, or there are none. -/
def Above (depth : Int) (entries : List Entry) : Prop :=
  ∀ entry ∈ entries.head?, entry.1 < depth

theorem not_above_entriesAll {depth : Int} {outline : Outline} {rest : List Outline}
    {more : List Entry} : ¬ Above depth (entriesAll depth (outline :: rest) ++ more) := by
  intro h
  obtain ⟨type, name, children⟩ := outline
  rw [entriesAll_cons_append] at h
  exact Int.lt_irrefl depth (h _ rfl)

/-- What follows what is under a tag starts above it. -/
theorem above_succ {depth : Int} (outlines : List Outline) {more : List Entry}
    (h : Above depth more) : Above (depth + 1) (entriesAll depth outlines ++ more) := by
  cases outlines with
  | nil =>
    intro entry hentry
    have hlt := h entry hentry
    omega
  | cons outline rest =>
    obtain ⟨type, name, children⟩ := outline
    rw [entriesAll_cons_append]
    rintro entry ⟨⟩
    exact Int.lt_succ depth

/-- **Entries tell which outlines they are of, and where these end.** -/
theorem eq_of_entriesAll_append {depth : Int} : (outlines others : List Outline) →
    {more besides : List Entry} → Above depth more → Above depth besides →
    entriesAll depth outlines ++ more = entriesAll depth others ++ besides →
    outlines = others ∧ more = besides
  | [], [], _, _, _, _, h => ⟨rfl, h⟩
  | [], _ :: _, _, _, hm, _, h => by
    -- what follows on one side would start with a tag of the other
    rw [entriesAll_nil_append] at h
    rw [h] at hm
    exact absurd hm not_above_entriesAll
  | _ :: _, [], _, _, _, hb, h => by
    rw [entriesAll_nil_append] at h
    rw [← h] at hb
    exact absurd hb not_above_entriesAll
  | ⟨type, name, children⟩ :: rest, ⟨type', name', children'⟩ :: rest', more, besides, hm, hb, h => by
    rw [entriesAll_cons_append, entriesAll_cons_append] at h
    obtain ⟨hentry, htail⟩ := List.cons.inj h
    cases hentry
    -- the entries of the children end where the depth of the tag itself is reached again
    obtain ⟨rfl, hafter⟩ :=
      eq_of_entriesAll_append children children' (above_succ rest hm) (above_succ rest' hb) htail
    obtain ⟨rfl, rfl⟩ := eq_of_entriesAll_append rest rest' hm hb hafter
    exact ⟨rfl, rfl⟩

theorem entriesAll_injective {depth : Int} {outlines others : List Outline}
    (h : entriesAll depth outlines = entriesAll depth others) : outlines = others := by
  have hnil : Above depth [] := nofun
  rw [← List.append_nil (entriesAll depth outlines),
    ← List.append_nil (entriesAll depth others)] at h
  exact (eq_of_entriesAll_append outlines others hnil hnil h).1

end Outline

/-! ## Outlines of documents -/

namespace Node

/-- A tree in which only tags have children, and which has no root in it. -/
inductive Proper : Node → Prop
  | text {content : String} {position : Int} : Proper ⟨.text content position, []⟩
  | tag {tag : Tag} {children : List Node} (hc : ∀ child ∈ children, Proper child) :
    Proper ⟨.tag tag, children⟩

theorem Sectioned.proper : {node : Node} → node.Sectioned → node.Proper
  | _, .text => .text
  | _, .leaf _ _ => .tag (List.forall_mem_nil _)
  | _, .block _ hc => .tag fun child hm => (hc child hm).proper

mutual

/-- The outline of a tag, and nothing for a text. -/
def outline : Node → List Outline
  | ⟨.tag tag, children⟩ => [⟨tag.type, tag.name, outlines children⟩]
  | ⟨_, _⟩ => []

/-- The forest without its texts and its positions. -/
def outlines : List Node → List Outline
  | [] => []
  | node :: rest => node.outline ++ outlines rest

end

mutual

theorem filterMap_preorder (depth : Int) : (node : Node) → node.Proper →
    (node.preorder depth).filterMap listedTag? = Outline.entriesAll depth node.outline
  | ⟨label, children⟩, h => by
    cases h with
    | text => rfl
    | @tag tag _ hc =>
      have hchildren := filterMap_preorderAll (depth + 1) children hc
      rw [preorder, outline, Outline.entriesAll, Outline.entries, Outline.entriesAll,
        List.append_nil, ← hchildren]
      rfl

/-- The tags that are listed for a forest are the entries of its outlines. -/
theorem filterMap_preorderAll (depth : Int) : (nodes : List Node) → (∀ node ∈ nodes, node.Proper) →
    (preorderAll depth nodes).filterMap listedTag? = Outline.entriesAll depth (outlines nodes)
  | [], _ => rfl
  | node :: rest, h => by
    obtain ⟨hnode, hrest⟩ := List.forall_mem_cons.1 h
    rw [preorderAll, List.filterMap_append, filterMap_preorder depth node hnode,
      filterMap_preorderAll depth rest hrest, outlines, Outline.entriesAll_append]

end

end Node

namespace Document

/-- Only tags have children, and nowhere is there another root. -/
def Proper (document : Document) : Prop :=
  ∀ node ∈ document.nodes, node.Proper

/-- The document without its texts and its positions. -/
def outlines (document : Document) : List Outline :=
  Node.outlines document.nodes

theorem tagSequence_eq_entriesAll {document : Document} (h : document.Proper) :
    document.tagSequence = Outline.entriesAll 0 document.outlines := by
  rw [tagSequence_eq, Node.filterMap_preorderAll 0 document.nodes h]
  rfl

theorem proper_of_readFrom {pair : Delimiters} {source : String} {document : Document}
    (h : (Template.readFrom pair source).outcome = .ok document) : document.Proper := by
  intro node hm
  exact (Template.sectioned_of_readFrom h node hm).proper

/-- **The sequences of tags of two documents are the same exactly if the documents are the same without
their texts and positions.** This needs no more than what holds of all documents that are read. -/
theorem tagSequence_eq_iff :
    (∀ (pair : Delimiters) (source : String) (document : Document),
        (Template.readFrom pair source).outcome = .ok document → document.Proper) ∧
      ∀ document other : Document, document.Proper → other.Proper →
        (document.tagSequence = other.tagSequence ↔ document.outlines = other.outlines) := by
  refine ⟨fun _ _ _ h => proper_of_readFrom h, ?_⟩
  intro document other hd ho
  rw [tagSequence_eq_entriesAll hd, tagSequence_eq_entriesAll ho]
  constructor
  · exact Outline.entriesAll_injective
  · intro h
    rw [h]

/-- The tags of `switchedTemplate` at other positions, with no text. -/
def barrenTemplate : Document :=
  ⟨[⟨.tag ⟨"<% %>", .switch, 3⟩, []⟩, ⟨.tag ⟨"s", .sectionBegin, 20⟩, []⟩], ""⟩

/-- The tags of `switchedTemplate`, one under the other. -/
def nestedTemplate : Document :=
  ⟨[⟨.tag ⟨"<% %>", .switch, 0⟩, [⟨.tag ⟨"s", .sectionBegin, 11⟩, []⟩]⟩], ""⟩

/-- Texts and positions make no difference to the sequence of tags, and nesting does. -/
theorem tagSequence_switchedTemplate :
    Template.switchedTemplate.Proper ∧ barrenTemplate.Proper ∧ nestedTemplate.Proper ∧
      Template.switchedTemplate.tagSequence = barrenTemplate.tagSequence ∧
      Template.switchedTemplate.tagSequence ≠ nestedTemplate.tagSequence := by
  obtain ⟨hread, hiff⟩ := tagSequence_eq_iff
  have hs : Template.switchedTemplate.Proper := hread .braces _ _ Template.parse_switchedTemplate
  have hb : barrenTemplate.Proper := by
    rintro node (_ | ⟨_, _ | ⟨_, ⟨⟩⟩⟩) <;> exact .tag (List.forall_mem_nil _)
  have hn : nestedTemplate.Proper := by
    rintro node (_ | ⟨_, ⟨⟩⟩)
    apply Node.Proper.tag
    rintro child (_ | ⟨_, ⟨⟩⟩)
    exact .tag (List.forall_mem_nil _)
  refine ⟨hs, hb, hn, (hiff _ _ hs hb).2 rfl, ?_⟩
  intro h
  have hlength := congrArg List.length ((hiff _ _ hs hn).1 h)
  exact absurd hlength (by decide)

end Document

end Stencil

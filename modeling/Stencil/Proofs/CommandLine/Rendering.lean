import Stencil.Proofs.CommandLine.Loading
import Stencil.Proofs.Render.Failing
import Stencil.Proofs.Template.Preorder

/-!
# Failures of templates and renderings

What a rendering of a command fails with is foreseen (`Source.foreseen_of_render`). The template and its
partials come from places for templates, so each tag that the walk comes to is one of theirs
(`every_tagAt`), and the loader, the limit of the inclusion depth and the numbers in names and in data
are all that a tag can fail for.
-/

set_option autoImplicit false

namespace Stencil

/-! ## The tags of a document -/

section Every

variable {property : Label → Prop}

mutual

theorem Node.every_of_preorder (depth : Int) :
    (node : Node) → (∀ visited ∈ Node.preorder depth node, property visited.1.label) →
      node.Every property
  | ⟨label, children⟩, h => by
    rw [Node.preorder, List.forall_mem_cons] at h
    exact .intro h.1 (Node.every_of_preorderAll (depth + 1) children h.2)

theorem Node.every_of_preorderAll (depth : Int) :
    (nodes : List Node) → (∀ visited ∈ Node.preorderAll depth nodes, property visited.1.label) →
      ∀ node ∈ nodes, node.Every property
  | [], _ => nofun
  | node :: rest, h => by
    rw [Node.preorderAll, List.forall_mem_append] at h
    exact List.forall_mem_cons.2
      ⟨Node.every_of_preorder depth node h.1, Node.every_of_preorderAll depth rest h.2⟩

end

theorem Node.Every.imp {other : Label → Prop} {node : Node} (h : node.Every property)
    (hi : ∀ label, property label → other label) : node.Every other := by
  induction h with
  | intro hl _ ih => exact .intro (hi _ hl) ih

theorem Document.every_hasTag (document : Document) :
    document.Every fun label => ∀ tag, label = .tag tag → document.HasTag tag.type tag.name := by
  refine Node.every_of_preorderAll 0 document.nodes fun visited hm tag hl => ⟨visited.2, ?_⟩
  rw [document.tagSequence_eq]
  refine List.mem_filterMap.2 ⟨visited, hm, ?_⟩
  rw [listedTag?, Node.tag?, hl]
  rfl

end Every

/-- Only a tag that looks its name up raises. -/
theorem Tag.Raises.consults {ν : Type} {graph : Graph ν} {stack : ContextStack ν} {tag : Tag}
    (h : tag.Raises graph stack) : tag.Consults := by
  cases h with
  | lookup hc => exact hc
  | item ht => exact .inl (by rw [Tag.isSectionBegin, ht]; rfl)

namespace CommandLine

open Files

variable {tree : Tree} {invocation : Invocation} {reader : Yaml.Reader} {path : Path}

/-! ## Templates and partials -/

theorem every_tagAt {source : String} {document : Document}
    (hp : TemplateAt tree invocation reader path) (hr : tree.readText path = .ok (some source)) (hs : Template.parse source = .ok document) :
    document.Every fun label => ∀ tag, label = .tag tag →
      TagAt tree invocation reader tag.type tag.name := by
  intro node hm
  refine (document.every_hasTag node hm).imp fun label htag tag hl => ?_
  exact ⟨path, source, document, hp, hr, hs, htag tag hl⟩

/-- Why a partial cannot be loaded. -/
theorem culprit_of_loader {directory : PartialDirectory} {name : String} {error : FileError}
    (hd : DirectoryFor tree invocation reader directory)
    (ht : TagAt tree invocation reader .inclusion name)
    (h : (directory.loader tree name).2 = .error error) :
    Culprit tree invocation reader (.file error) := by
  -- a partial that is looked up inside of the directory is a template of the command
  have hp (hi : directory.contains ((directory.pathOf name).resolve []) = true) :
      TemplateAt tree invocation reader (.ofPlace ((directory.pathOf name).resolve [])) := by
    obtain ⟨path, source, document, hp, hr, hs, htag⟩ := ht
    exact .included hp hr hs htag hd hi
  unfold PartialDirectory.loader at h
  split at h
  · cases h
  · dsimp only at h
    split at h
    · next hn =>
      cases h
      exact .partialName hd ht hn
    · split at h
      · cases h
      · next hi =>
        have hinside := hp (by simpa using hi)
        split at h
        · next hf =>
          cases h
          obtain ⟨rfl, hl⟩ := tooLong_of_probe hf
          exact .tooLong (.inl hinside) hl
        · cases h
        · obtain ⟨fault, content, rfl, ha, htext⟩ := not_isText_of_readText h
          exact .bytes (.inl hinside) ha htext

/-- What a loader gives for a partial is read from a place in the directory. -/
theorem readText_of_loader {directory : PartialDirectory} {name source : String}
    (h : (directory.loader tree name).2 = .ok (some source)) :
    directory.contains ((directory.pathOf name).resolve []) = true ∧
      tree.readText (.ofPlace ((directory.pathOf name).resolve [])) = .ok (some source) := by
  unfold PartialDirectory.loader at h
  split at h
  · cases h
  · dsimp only at h
    split at h
    · cases h
    · split at h
      · cases h
      · next hi =>
        split at h
        · cases h
        · cases h
        · exact ⟨by simpa using hi, h⟩

/-! ## Renderings -/

/-- The stack of values of a stage of the command. -/
def stackSeat (graph : Graph Nat) (loader : Loader Breakdown) :
    (Stage.host (stackContext graph) loader).Seat graph where
  get := Stage.context
  set context stage := { stage with context := context }
  embed := .context
  context_eq := Context.zoom_zoom _ _ _ _ _ _ (Context.ofStack graph)
  get_set _ _ := rfl
  get_write _ _ := rfl
  get_load name stage := by
    simp only [Stage.host]
    cases (loader name).2 <;> rfl
  get_note _ _ := rfl

section Load

variable {graph : Graph Nat} {loader : Loader FileError} {name : String}
  {stage after : Stage (ContextStack Nat)}

theorem loader_of_load {answer : Option String}
    (h : (Stage.host (stackContext graph) (breakable loader)).load name stage = .ok answer after) :
    (loader name).2 = .ok answer := by
  simp only [Stage.host, breakable] at h
  cases hl : (loader name).2 with
  | ok found =>
    rw [hl] at h
    cases h
    rfl
  | error error =>
    rw [hl] at h
    cases h

theorem loader_of_load_error {cause : Breakdown}
    (h : (Stage.host (stackContext graph) (breakable loader)).load name stage = .error cause after) :
    ∃ error, cause = .file error ∧ (loader name).2 = .error error := by
  simp only [Stage.host, breakable] at h
  cases hl : (loader name).2 with
  | ok found =>
    rw [hl] at h
    cases h
  | error error =>
    rw [hl] at h
    cases h
    exact ⟨error, rfl, rfl⟩

end Load

/-- What there is to render, without the data. -/
structure Source (tree : Tree) (invocation : Invocation) (reader : Yaml.Reader) (settings : Settings)
    (loader : Loader FileError) (document : Document) : Prop where
  settings_for : SettingsFor tree invocation reader settings
  loader_for : LoaderFor tree settings loader
  exists_source : ∃ source, tree.readText (.ofText invocation.template) = .ok (some source) ∧
    Template.parse source = .ok document

section Rendering

variable {settings : Settings} {loader : Loader FileError} {document : Document}

/-- A partial is read from a place for templates. -/
theorem Source.exists_templateAt (h : Source tree invocation reader settings loader document)
    {name source : String} (ht : TagAt tree invocation reader .inclusion name)
    (hl : (loader name).2 = .ok (some source)) :
    ∃ path, TemplateAt tree invocation reader path ∧ tree.readText path = .ok (some source) := by
  cases h.loader_for with
  | none => cases hl
  | @directory path directory hp hd =>
    obtain ⟨_, _, _, hat, hread, hparse, htag⟩ := ht
    obtain ⟨hinside, htext⟩ := readText_of_loader hl
    have hdirectory : DirectoryFor tree invocation reader directory :=
      ⟨settings, path, h.settings_for, hp, hd⟩
    exact ⟨_, .included hat hread hparse htag hdirectory hinside, htext⟩

theorem Source.culprit_of_loader (h : Source tree invocation reader settings loader document)
    {name : String} {error : FileError} (ht : TagAt tree invocation reader .inclusion name)
    (hl : (loader name).2 = .error error) : Culprit tree invocation reader (.file error) := by
  cases h.loader_for with
  | none => cases hl
  | @directory path directory hp hd =>
    exact CommandLine.culprit_of_loader ⟨settings, path, h.settings_for, hp, hd⟩ ht hl

theorem culprit_of_not_writable (hc : invocation.command = .render) {data : Yaml.Document}
    (hd : DataFor tree invocation reader data) (hw : ¬ data.Writable) (error : NumeralError) :
    Culprit tree invocation reader (.context (.numeral error)) := by
  rcases writable_or_exists hc hd with hok | ⟨path, minor, hp, hr⟩
  · exact absurd hok hw
  · exact .number hp hr hw

theorem written_of_ofDatum {data : Yaml.Document} (hw : data.Writable) {stack : ContextStack Nat}
    (h : ContextStack.ofDatum data.graph data.root = .ok stack) :
    ∀ frame ∈ stack.frames, frame.Written data.graph := by
  unfold ContextStack.ofDatum at h
  split at h
  · cases h
    exact List.forall_mem_singleton.2 nofun
  · cases hv : Value.wrap data.graph data.root with
    | error error =>
      rw [hv] at h
      cases h
    | ok value =>
      rw [hv] at h
      cases h
      exact List.forall_mem_singleton.2 (written_of_wrap hw.graph hv)

/-- Whatever a rendering of the command fails with is foreseen. -/
theorem Source.foreseen_of_render (h : Source tree invocation reader settings loader document)
    {data : Yaml.Document} (hd : DataFor tree invocation reader data)
    {stack : ContextStack Nat} (hstack : ContextStack.ofDatum data.graph data.root = .ok stack)
    {error : RenderError Breakdown}
    (he : (({ options := settings.rendering } : Renderer).renderOver (stackContext data.graph)
      (breakable loader) data.graph document stack).result = .error error) :
    Foreseen tree invocation reader (.ofRender error) := by
  let seat := stackSeat data.graph (breakable loader)
  obtain ⟨machine, node, depth, hreaches, hat, hfailing⟩ := Render.exists_failing seat
    (fun text stage => ⟨_, rfl⟩) he
  obtain ⟨source, hread, hparse⟩ := h.exists_source
  let start : Stage (ContextStack Nat) := { context := stack }
  -- kept along the walk, for any property of values: tags come from templates of the command, and
  -- values from the data
  have hpending (proper : Value Nat → Prop) (hs : ∀ frame ∈ (seat.get start).frames, proper frame)
      (hscopes : ∀ stack : ContextStack Nat, (∀ frame ∈ stack.frames, proper frame) →
        ∀ name value values, stack.lookup data.graph name = .ok (some value) →
        Render.sectionScopes data.graph value = .ok values → ∀ scope ∈ values, proper scope) :=
    Render.sourced_of_reaches seat (every_tagAt .given hread hparse)
      (fun tag ht hi stage source after known hload hs => by
        obtain ⟨path, hat, hread⟩ := h.exists_templateAt (hi ▸ ht tag rfl) (loader_of_load hload)
        exact every_tagAt hat hread hs)
      (fun _ _ hm => absurd hm List.not_mem_nil) hs hscopes hreaches
  have hlabel : ∀ tag, node.label = .tag tag → TagAt tree invocation reader tag.type tag.name :=
    ((hpending (fun _ => True) (fun _ _ => trivial) fun _ _ _ _ _ _ _ _ _ => trivial).at hat).label
  cases hfailing with
  | @number tag _ hl hraises hn =>
    have hculprit (numeral : NumeralError) :
        Culprit tree invocation reader (.context (.numeral numeral)) := by
      -- with numbers in the data that cannot be written these are to blame, and else the name
      by_cases hw : data.Writable
      · refine .position (hlabel tag hl) hraises.consults fun hnumbered => ?_
        have hstart : ∀ frame ∈ (seat.get start).frames, frame.Written data.graph :=
          written_of_ofDatum hw hstack
        have hwritten := hpending (Value.Written data.graph) hstart
          fun stack hframes name value values hlookup hsections =>
            Render.written_of_sectionScopes hw.graph
              (ContextStack.written_of_lookup hw.graph hframes hlookup) hsections
        exact Render.not_raises_of_written hw.graph
          (Render.proper_frames seat hstart hreaches hwritten.hooksOf) hnumbered hraises
      · exact culprit_of_not_writable h.settings_for.command_eq hd hw numeral
    obtain ⟨numeral, rfl | rfl⟩ := hn
    · exact hculprit numeral
    · exact hculprit numeral
  | tooDeep hl ht => exact Complaint.tooDeep h.settings_for (ht ▸ hlabel _ hl)
  | @unsettled tag _ hl ht hu =>
    have htag : TagAt tree invocation reader .inclusion tag.name := ht ▸ hlabel tag hl
    cases hu with
    | load hload =>
      obtain ⟨error, rfl, hloader⟩ := loader_of_load_error hload
      exact h.culprit_of_loader htag hloader
    | defect hload hs =>
      obtain ⟨path, hat, hread⟩ := h.exists_templateAt htag (loader_of_load hload)
      exact Complaint.partialTemplate hat hread hs

end Rendering

end CommandLine

end Stencil

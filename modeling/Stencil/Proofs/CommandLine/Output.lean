import Mathlib.Data.List.Basic
import Stencil.CommandLine.Run
import Stencil.Proofs.Render.Action

/-!
# What a command writes

Rendering goes through stages, settings, partials, template, data and text, and any of them can fail.
None of them writes (`Silent`), so what a command has written is all or nothing. What is written if all
goes well is the text that the library gives for the same things: a `Task` is what the files and the
command line make of these, told without the command, and its text is the output (`run_render_iff`).

For each stage there is one lemma that says when it succeeds and with what. Settings and data come from
a reader of YAML, which can be any.
-/

set_option autoImplicit false

namespace Stencil.CommandLine

open Files

/-! ## Stages of work -/

section Stages

variable {ε α β : Type} {progress : Progress}

theorem bind_eq_ok_iff {first : Work α} {next : α → Work β} {answer : β} {after : Progress} :
    (first >>= next) progress = .ok answer after ↔
      ∃ result between, first progress = .ok result between ∧
        next result between = .ok answer after := by
  simp only [bind, EStateM.bind]
  cases first progress with
  | ok result between =>
    constructor
    · intro h
      exact ⟨result, between, rfl, h⟩
    · rintro ⟨_, _, ⟨⟩, h⟩
      exact h
  | error error between => exact iff_of_false nofun fun ⟨_, _, h, _⟩ => nomatch h

theorem attempt_eq_ok_iff {failure : ε → Failure} {result : Except ε α} {answer : α}
    {after : Progress} :
    attempt failure result progress = .ok answer after ↔ result = .ok answer ∧ after = progress := by
  cases result with
  | ok other =>
    constructor
    · intro h
      cases h
      exact ⟨rfl, rfl⟩
    · rintro ⟨⟨⟩, rfl⟩
      rfl
  | error error => exact iff_of_false nofun fun ⟨h, _⟩ => nomatch h

/-- Work that is refused where something is not found. -/
theorem guarded_eq_ok_iff {found : Bool} {failure : Failure} {refused : PUnit → Work β} {next : Work β}
    {answer : β} {after : Progress} :
    (if (!found) = true then (throw failure : Work PUnit) >>= refused else next) progress =
        .ok answer after ↔
      found = true ∧ next progress = .ok answer after := by
  cases found with
  | true => exact ⟨fun h => ⟨rfl, h⟩, fun h => h.2⟩
  | false => exact iff_of_false nofun fun h => nomatch h.1

theorem pure_eq_ok_iff {result answer : α} {after : Progress} :
    (pure result : Work α) progress = .ok answer after ↔ answer = result ∧ after = progress := by
  constructor
  · intro h
    cases h
    exact ⟨rfl, rfl⟩
  · rintro ⟨rfl, rfl⟩
    rfl

theorem note_eq_ok_iff {notices : List Notice} {answer : Unit} {after : Progress} :
    note notices progress = .ok answer after ↔
      after = { progress with notices := notices ++ progress.notices } := by
  constructor
  · intro h
    cases h
    rfl
  · rintro rfl
    rfl

/-! ## Work that writes nothing -/

/-- The work leaves what has been written as it is, also if it fails. -/
def Silent (work : Work α) : Prop :=
  ∀ progress, (Walk.stateOf (work progress)).written = progress.written

theorem silent_pure (answer : α) : Silent (pure answer : Work α) := fun _ => rfl

theorem silent_throw (failure : Failure) : Silent (throw failure : Work α) := fun _ => rfl

theorem silent_note (notices : List Notice) : Silent (note notices) := fun _ => rfl

theorem silent_attempt (failure : ε → Failure) (result : Except ε α) :
    Silent (attempt failure result) := by
  cases result with
  | ok answer => exact silent_pure answer
  | error error => exact silent_throw (failure error)

theorem silent_bind {first : Work α} {next : α → Work β} (hf : Silent first)
    (hn : ∀ answer, Silent (next answer)) : Silent (first >>= next) := by
  intro progress
  have hfirst := hf progress
  simp only [bind, EStateM.bind]
  cases hr : first progress with
  | ok answer between =>
    rw [hr] at hfirst
    exact (hn answer between).trans hfirst
  | error failure between =>
    rw [hr] at hfirst
    exact hfirst

/-- Work that fails has left what has been written as it is. -/
def FailsSilently (work : Work α) : Prop :=
  ∀ progress failure after, work progress = .error failure after → after.written = progress.written

/-- What is written after everything else cannot be followed by a failure. -/
theorem failsSilently_write {first : Work β} (text : β → String) (answer : α) (hf : Silent first) :
    FailsSilently (do
      write (text (← first))
      return answer) := by
  intro progress failure after h
  have hfirst := hf progress
  simp only [bind, EStateM.bind] at h
  cases hr : first progress with
  | ok result between =>
    rw [hr] at h
    cases h
  | error other between =>
    rw [hr] at h hfirst
    cases h
    exact hfirst

theorem Silent.written_eq {work : Work α} {after : Progress} {answer : α} (h : Silent work)
    (hr : work progress = .ok answer after) : after.written = progress.written := by
  have hs := h progress
  rw [hr] at hs
  exact hs

theorem Silent.failsSilently {work : Work α} (h : Silent work) : FailsSilently work := by
  intro progress failure after hr
  have hs := h progress
  rw [hr] at hs
  exact hs

theorem FailsSilently.of_bind {first : Work α} {next : α → Work β} (hf : Silent first)
    (hn : ∀ answer, FailsSilently (next answer)) : FailsSilently (first >>= next) := by
  intro progress failure after h
  have hfirst := hf progress
  simp only [bind, EStateM.bind] at h
  -- the first part is silent even if it succeeds, so what fails later has no text before it
  cases hr : first progress with
  | ok answer between =>
    rw [hr] at h hfirst
    exact (hn answer between failure after h).trans hfirst
  | error other between =>
    rw [hr] at h hfirst
    cases h
    exact hfirst

end Stages

/-! ## What the library is called with -/

/-- Settings from a file, with those of the command line in their place. -/
def overridden (configured : Settings) (invocation : Invocation) : Settings :=
  { configured with
    rendering := { configured.rendering with
      escape := if invocation.noEscape then false else configured.rendering.escape }
    partialsPath :=
      match invocation.partials with
      | some directory => some (.ofText directory)
      | none => configured.partialsPath }

/-- The partials are those in the directory that the settings name; without a directory there are
none. -/
inductive LoaderFor (tree : Tree) (settings : Settings) : Loader FileError → Prop
  | none (h : settings.partialsPath = none) : LoaderFor tree settings .empty
  | directory {path : Path} {directory : PartialDirectory} (h : settings.partialsPath = some path)
    (hd : PartialDirectory.ofPath tree path settings.partialsSuffix = .ok directory) :
    LoaderFor tree settings (directory.loader tree)

/-- The data are those in the file that the command line names; without a file, they are an empty
mapping. -/
inductive DataFor (tree : Tree) (invocation : Invocation) (reader : Yaml.Reader) :
    Yaml.Document → Prop
  | none (h : invocation.data = none) :
    DataFor tree invocation reader { root := .container 0, cells := #[.mapping []] }
  | file {path : String} {data : Yaml.Document} (h : invocation.data = some path)
    (hl : DataFile.load tree (.ofText path) (settingsVersion tree invocation reader) reader =
      .ok data) :
    DataFor tree invocation reader data

/-- A stack as the library has it. Its errors break a command off. -/
def stackContext (graph : Graph Nat) : Context (ContextStack Nat) Breakdown Nat :=
  (Context.ofStack graph).zoom id (fun stack _ => stack) .context

/-- What there is to render, as the files and the command line have it. -/
structure Task (tree : Tree) (invocation : Invocation) (reader : Yaml.Reader) where
  configured : Settings
  source : String
  loader : Loader FileError
  data : Yaml.Document
  stack : ContextStack Nat
  loads_settings : Settings.load tree (settingsPath tree invocation) reader = .ok configured
  reads_source : tree.readText (.ofText invocation.template) = .ok (some source)
  finds_loader : LoaderFor tree (overridden configured invocation) loader
  loads_data : DataFor tree invocation reader data
  holds_data : ContextStack.ofDatum data.graph data.root = .ok stack

/-- The text that the library gives. -/
def Task.text {tree : Tree} {invocation : Invocation} {reader : Yaml.Reader}
    (task : Task tree invocation reader) : Except (TextFailure Breakdown) String :=
  (Template.ofSource task.source).renderToString
    (overridden task.configured invocation).rendering (stackContext task.data.graph)
    (breakable task.loader) task.data.graph task.stack

/-! ## When stages succeed -/

section Stages

variable {tree : Tree} {invocation : Invocation} {reader : Yaml.Reader} {settings : Settings}
  {loader : Loader FileError} {data : Yaml.Document} {progress : Progress}

theorem settings_eq_ok_iff :
    CommandLine.settings tree invocation reader = .ok settings ↔
      ∃ configured, Settings.load tree (settingsPath tree invocation) reader = .ok configured ∧
        settings = overridden configured invocation := by
  have hoverridden (configured : Settings) : overridden configured invocation =
      { configured with
        rendering := { configured.rendering with
          escape := configured.rendering.escape && !invocation.noEscape }
        partialsPath := (invocation.partials.map Path.ofText).or configured.partialsPath } := by
    unfold overridden
    cases invocation.noEscape <;> cases invocation.partials <;> simp
  unfold CommandLine.settings
  cases Settings.load tree (settingsPath tree invocation) reader with
  | error error => exact iff_of_false nofun fun ⟨_, h, _⟩ => nomatch h
  | ok configured =>
    constructor
    · intro h
      refine ⟨configured, rfl, ?_⟩
      rw [hoverridden]
      exact (Except.ok.inj h).symm
    · rintro ⟨_, ⟨⟩, rfl⟩
      rw [hoverridden]
      rfl

theorem partials_eq_ok_iff :
    partials tree settings = .ok loader ↔ LoaderFor tree settings loader := by
  unfold partials
  cases hp : settings.partialsPath with
  | none =>
    constructor
    · intro h
      cases h
      exact .none hp
    · intro h
      cases h with
      | none => rfl
      | directory h => rw [hp] at h; cases h
  | some path =>
    dsimp only
    constructor
    · intro h
      split at h
      · next directory hd =>
        cases h
        exact .directory hp hd
      · cases h
    · intro h
      cases h with
      | none h => rw [hp] at h; cases h
      | directory h hd =>
        rw [hp] at h
        cases h
        rw [hd]

theorem data_eq_ok_iff :
    CommandLine.data tree invocation reader = .ok data ↔ DataFor tree invocation reader data := by
  unfold CommandLine.data
  cases hp : invocation.data with
  | none =>
    constructor
    · intro h
      cases h
      exact .none hp
    · intro h
      cases h with
      | none => rfl
      | file h => rw [hp] at h; cases h
  | some path =>
    constructor
    · intro h
      exact .file hp h
    · intro h
      cases h with
      | none h => rw [hp] at h; cases h
      | file h hl =>
        rw [hp] at h
        cases h
        exact hl

/-- Only a file has a text. -/
theorem isFile_of_readText {path : Path} {source : String}
    (h : tree.readText path = .ok (some source)) : tree.isFile path = .ok true := by
  unfold Tree.readText at h
  unfold Tree.isFile Tree.probe
  split at h
  · next content ha =>
    rw [ha]
    rfl
  · cases h

/-- A file has a text, unless it is unreadable. -/
theorem exists_readText_of_isFile {path : Path} {found : Option String}
    (hf : tree.isFile path = .ok true) (hr : tree.readText path = .ok found) :
    ∃ source, found = some source := by
  unfold Tree.isFile Tree.probe at hf
  unfold Tree.readText at hr
  cases ha : tree.access path with
  | error error =>
    rw [ha] at hf
    cases error <;> cases hf
  | ok entry =>
    rw [ha] at hf hr
    cases entry with
    | directory entries => cases hf
    | file content =>
      dsimp only at hr
      split at hr
      · cases hr
        exact ⟨_, rfl⟩
      · cases hr

theorem readTemplate_eq_ok_iff {path : Path} {template : Template} :
    (∃ after, readTemplate tree path settings progress = .ok (template, loader) after) ↔
      ∃ source, tree.readText path = .ok (some source) ∧ LoaderFor tree settings loader ∧
        template = .ofSource source := by
  simp only [readTemplate, bind_eq_ok_iff, guarded_eq_ok_iff, attempt_eq_ok_iff, note_eq_ok_iff,
    pure_eq_ok_iff, partials_eq_ok_iff]
  constructor
  · rintro ⟨_, _, _, ⟨hf, rfl⟩, rfl, loader', _, ⟨hl, rfl⟩, found, _, ⟨hr, rfl⟩, _, _, _, ⟨⟩, rfl⟩
    obtain ⟨source, rfl⟩ := exists_readText_of_isFile hf hr
    exact ⟨source, hr, hl, rfl⟩
  -- a file that has a text passes the test that the command makes first
  · rintro ⟨source, hr, hl, rfl⟩
    exact ⟨_, true, progress, ⟨isFile_of_readText hr, rfl⟩, rfl, loader, progress, ⟨hl, rfl⟩,
      some source, progress, ⟨hr, rfl⟩, ⟨⟩, _, rfl, rfl, rfl⟩

theorem renderText_eq_ok_iff {template : Template} {text : String} :
    (∃ after, renderText settings template loader data progress = .ok text after) ↔
      ∃ start, ContextStack.ofDatum data.graph data.root = .ok start ∧
        template.renderToString settings.rendering (stackContext data.graph) (breakable loader)
          data.graph start = .ok text := by
  simp only [renderText, bind_eq_ok_iff, attempt_eq_ok_iff, note_eq_ok_iff, pure_eq_ok_iff,
    Template.renderToString_eq_ok_iff, stackContext]
  constructor
  · rintro ⟨_, start, _, ⟨hs, rfl⟩, document, _, ⟨hd, rfl⟩, _, _, rfl, _, _, ⟨hr, rfl⟩, rfl, rfl⟩
    exact ⟨start, hs, document, hd, hr, rfl⟩
  · rintro ⟨start, hs, document, hd, hr, rfl⟩
    exact ⟨_, start, progress, ⟨hs, rfl⟩, document, progress, ⟨hd, rfl⟩, ⟨⟩, _, rfl, ⟨⟩, _,
      ⟨hr, rfl⟩, rfl, rfl⟩

theorem renderedText_eq_ok_iff {text : String} :
    (∃ after, renderedText tree invocation reader progress = .ok text after) ↔
      ∃ task : Task tree invocation reader, task.text = .ok text := by
  simp only [renderedText, bind_eq_ok_iff, attempt_eq_ok_iff, settings_eq_ok_iff, data_eq_ok_iff]
  constructor
  · rintro ⟨_, _, _, ⟨⟨configured, hs, rfl⟩, rfl⟩, ⟨template, loader⟩, _, ht, data, _, ⟨hd, rfl⟩, hr⟩
    obtain ⟨source, hsource, hl, rfl⟩ := readTemplate_eq_ok_iff.1 ⟨_, ht⟩
    obtain ⟨stack, hstack, htext⟩ := renderText_eq_ok_iff.1 ⟨_, hr⟩
    exact ⟨⟨configured, source, loader, data, stack, hs, hsource, hl, hd, hstack⟩, htext⟩
  · rintro ⟨task, htext⟩
    obtain ⟨between, ht⟩ :=
      readTemplate_eq_ok_iff.2 ⟨task.source, task.reads_source, task.finds_loader, rfl⟩
    obtain ⟨after, hr⟩ := renderText_eq_ok_iff.2 ⟨task.stack, task.holds_data, htext⟩
    exact ⟨after, _, progress, ⟨⟨task.configured, task.loads_settings, rfl⟩, rfl⟩, _, between, ht,
      task.data, between, ⟨task.loads_data, rfl⟩, hr⟩

end Stages

/-! ## No stage writes -/

theorem silent_readTemplate (tree : Tree) (path : Path) (settings : Settings) :
    Silent (readTemplate tree path settings) := by
  unfold readTemplate
  refine silent_bind (silent_attempt _ _) fun found => ?_
  have hrest : Silent (do
      let loader ← attempt ofFile (partials tree settings)
      let source ← attempt ofFile (tree.readText path)
      let template := Template.ofSource (source.getD "")
      note template.notices.reverse
      return (template, loader)) := by
    refine silent_bind (silent_attempt _ _) fun loader => ?_
    refine silent_bind (silent_attempt _ _) fun source => ?_
    exact silent_bind (silent_note _) fun _ => silent_pure _
  cases found with
  | false => exact silent_bind (silent_throw _) fun _ => hrest
  | true => exact hrest

theorem silent_renderText (settings : Settings) (template : Template) (loader : Loader FileError)
    (data : Yaml.Document) : Silent (renderText settings template loader data) := by
  unfold renderText
  refine silent_bind (silent_attempt _ _) fun start => ?_
  refine silent_bind (silent_attempt _ _) fun document => ?_
  refine silent_bind (silent_note _) fun _ => ?_
  exact silent_bind (silent_attempt _ _) fun _ => silent_pure _

theorem silent_renderedText (tree : Tree) (invocation : Invocation) (reader : Yaml.Reader) :
    Silent (renderedText tree invocation reader) := by
  unfold renderedText
  refine silent_bind (silent_attempt _ _) fun settings => ?_
  refine silent_bind (silent_readTemplate _ _ _) fun result => ?_
  refine silent_bind (silent_attempt _ _) fun data => ?_
  exact silent_renderText _ _ _ _

/-- Whatever the command is, it has written nothing if it fails. -/
theorem failsSilently_work (tree : Tree) (invocation : Invocation) (reader : Yaml.Reader) :
    FailsSilently (work tree invocation reader) := by
  unfold work
  dsimp only
  -- only a command that renders or prints writes, and it does so last
  split
  · exact failsSilently_write id ({} : Answer) (silent_renderedText tree invocation reader)
  · refine .of_bind (silent_readTemplate _ _ _) fun result => ?_
    exact failsSilently_write Listing.text ({} : Answer) (silent_attempt _ _)
  · refine .of_bind (silent_readTemplate _ _ _) fun result => Silent.failsSilently ?_
    split
    · exact silent_pure _
    · exact silent_pure _

/-! ## What is written -/

section Run

variable {tree : Tree} (debug : Bool) {invocation : Invocation} {reader : Yaml.Reader}
  {after : Progress}

theorem work_of_render (h : invocation.command = .render) :
    work tree invocation reader = do
      write (← renderedText tree invocation reader)
      return {} := by
  unfold work
  rw [h]

/-- A failure leaves nothing but what is reported. -/
theorem run_of_failure {failure : Failure}
    (hr : work tree invocation reader {} = .error failure after) :
    run tree debug invocation reader =
      { reported := log (invocation.verbose || debug) after.notices ++ failure.reported
        ending := failure.ending } := by
  have hwritten : after.written = [] := failsSilently_work tree invocation reader {} failure after hr
  unfold run
  rw [hr]
  simp only [Progress.output, hwritten]
  rfl

end Run

end Stencil.CommandLine

import Stencil.Proofs.CommandLine.Rendering

/-!
# How commands end

A command ends with one of three exit codes and says why, or it is broken off by something that is no
error of the user's, and then there is a culprit (`run_concludes`). The exit code is zero only if
nothing that the command reads is malformed: the template is one, and a command that renders has its
settings and its data.

What is said is one line, unless it quotes something that is not. How files are read as YAML is left open:
all of this holds for any reader, and what a reader cannot make sense of is a culprit.
-/

set_option autoImplicit false

namespace Stencil

/-! ## Messages of one line -/

def OneLine (text : String) : Prop := '\n' ∉ text.toList

instance (text : String) : Decidable (OneLine text) := inferInstanceAs (Decidable ('\n' ∉ text.toList))

theorem OneLine.append {text other : String} (ht : OneLine text) (ho : OneLine other) :
    OneLine (text ++ other) := by
  rw [OneLine, String.toList_append, List.mem_append, not_or]
  exact ⟨ht, ho⟩

theorem oneLine_repr (n : Nat) : OneLine (Nat.repr n) := by
  intro h
  rw [Nat.repr, String.toList_ofList] at h
  exact absurd (Nat.isDigit_of_mem_toDigits (by decide) (by decide) h) (by decide)

theorem oneLine_toString (n : Int) : OneLine (toString n) := by
  cases n with
  | ofNat n => exact oneLine_repr n
  | negSucc n => exact .append (by decide) (oneLine_repr (n + 1))

theorem SyntaxError.oneLine_message {error : SyntaxError} (h : ∀ name ∈ error.name?, OneLine name) :
    OneLine error.message := by
  cases error with
  | unterminatedTag position => exact .append (by decide) (oneLine_toString position)
  | unmatchedSectionEnd name position | unclosedSection name position
  | invalidDelimiters name position =>
    exact .append (.append (.append (by decide) (h name rfl)) (by decide)) (oneLine_toString position)

/-- The texts that the message of an error quotes. -/
def ConfigError.quotes : ConfigError → List String
  | .dataMissing path | .invalidYaml path | .notMapping path | .limitTooLow path => [path]
  | .unreadable path reason => [path, reason]
  | .unknownOption path key => [path, key]
  | .wrongType path key expected got => [path, key, expected, got]
  | .other message => [message]

theorem ConfigError.oneLine_message {error : ConfigError} (h : ∀ text ∈ error.quotes, OneLine text) :
    OneLine error.message := by
  cases error with
  | dataMissing path => exact .append (by decide) (h path (by simp [quotes]))
  | invalidYaml path | notMapping path | limitTooLow path =>
    exact .append (h path (by simp [quotes])) (by decide)
  | unreadable path reason =>
    exact .append (.append (h path (by simp [quotes])) (by decide)) (h reason (by simp [quotes]))
  | unknownOption path key =>
    have hpath : OneLine path := h path (by simp [quotes])
    have hkey : OneLine key := h key (by simp [quotes])
    exact .append (.append (.append hpath (by decide)) hkey) (by decide)
  | wrongType path key expected got =>
    have hpath : OneLine path := h path (by simp [quotes])
    have hkey : OneLine key := h key (by simp [quotes])
    have hexpected : OneLine expected := h expected (by simp [quotes])
    have hgot : OneLine got := h got (by simp [quotes])
    have hoption : OneLine (path ++ ": option '" ++ key) := .append (.append hpath (by decide)) hkey
    exact .append (.append (.append (.append hoption (by decide)) hexpected) (by decide)) hgot
  | other message => exact h message (by simp [quotes])

/-- The texts that the message of an error quotes. -/
def UserError.quotes : UserError → List String
  | .template error => error.name?.toList
  | .notValid cause => (cause.bind SyntaxError.name?).toList
  | .tooDeep name _ => [name]
  | .config error => error.quotes
  | .templateMissing path => [path]
  | .other message => [message]

theorem UserError.oneLine_message {error : UserError} (h : ∀ text ∈ error.quotes, OneLine text) :
    OneLine error.message := by
  cases error with
  | template error => exact error.oneLine_message fun name hn => h name (by simpa [quotes] using hn)
  | notValid cause =>
    cases cause with
    | none => decide
    | some error =>
      have hmessage : OneLine error.message :=
        error.oneLine_message fun name hn => h name (by simpa [quotes] using hn)
      exact .append (by decide) hmessage
  | tooDeep name limit =>
    exact .append (.append (.append (by decide) (h name (by simp [quotes]))) (by decide))
      (oneLine_toString limit)
  | config error => exact error.oneLine_message h
  | templateMissing path => exact .append (by decide) (h path (by simp [quotes]))
  | other message => exact h message (by simp [quotes])

/-- All that the message quotes is one line. What is wrong with a file that is no YAML is not told here,
where its parser would tell more. -/
def UserError.Terse (error : UserError) : Prop :=
  (∀ text ∈ error.quotes, OneLine text) ∧ ∀ path, error ≠ .config (.invalidYaml path)

/-! ## Templates from their sources -/

namespace Template

variable {source : String}

theorem document_eq_ok_iff {document : Document} :
    (ofSource source).document = .ok document ↔ parse source = .ok document := by
  have hparse : parse source = (ofSource source).reading.outcome := rfl
  rw [hparse, Template.document]
  cases (ofSource source).reading.outcome with
  | ok other => exact ⟨fun h => congrArg _ (Except.ok.inj h), fun h => congrArg _ (Except.ok.inj h)⟩
  | error defect => exact iff_of_false (by simp) (by simp)

theorem parse_of_document {error : UserError} (h : (ofSource source).document = .error error) :
    ∃ defect, parse source = .error defect ∧ error = .notValid (some defect) := by
  have hparse : parse source = (ofSource source).reading.outcome := rfl
  rw [Template.document] at h
  rw [hparse]
  cases hr : (ofSource source).reading.outcome with
  | ok document =>
    rw [hr] at h
    cases h
  | error defect =>
    rw [hr] at h
    cases h
    exact ⟨defect, rfl, rfl⟩

theorem isValid_of_parse {document : Document} (h : parse source = .ok document) :
    (ofSource source).isValid = true := by
  have hr : (ofSource source).reading.outcome = .ok document := h
  rw [isValid, error?, hr]
  rfl

theorem not_isValid_of_parse {defect : SyntaxError} (h : parse source = .error defect) :
    (ofSource source).isValid = false ∧ (ofSource source).errorMessage = defect.message := by
  have hr : (ofSource source).reading.outcome = .error defect := h
  rw [isValid, errorMessage, error?, hr]
  exact ⟨rfl, rfl⟩

end Template

namespace CommandLine

open Files

variable {ε α β : Type} {tree : Tree} {invocation : Invocation} {reader : Yaml.Reader}

/-! ## Failures of stages -/

/-- The work, from this progress on, fails only with what is foreseen. -/
def Foresees (tree : Tree) (invocation : Invocation) (reader : Yaml.Reader) (work : Work α)
    (progress : Progress) : Prop :=
  ∀ failure after, work progress = .error failure after → Foreseen tree invocation reader failure

section Rules

variable {progress : Progress}

theorem foresees_pure (answer : α) : Foresees tree invocation reader (pure answer) progress := nofun

theorem foresees_note (notices : List Notice) :
    Foresees tree invocation reader (note notices) progress := nofun

theorem foresees_write (text : String) : Foresees tree invocation reader (write text) progress := nofun

theorem foresees_throw {failure : Failure} (h : Foreseen tree invocation reader failure) :
    Foresees tree invocation reader (throw failure : Work α) progress := by
  intro other after hr
  cases hr
  exact h

theorem foresees_attempt {failure : ε → Failure} {result : Except ε α}
    (h : ∀ error, result = .error error → Foreseen tree invocation reader (failure error)) :
    Foresees tree invocation reader (attempt failure result) progress := by
  cases result with
  | ok answer => exact foresees_pure answer
  | error error => exact foresees_throw (h error rfl)

theorem foresees_bind {first : Work α} {next : α → Work β}
    (hf : Foresees tree invocation reader first progress)
    (hn : ∀ answer between, first progress = .ok answer between →
      Foresees tree invocation reader (next answer) between) :
    Foresees tree invocation reader (first >>= next) progress := by
  intro failure after h
  simp only [bind, EStateM.bind] at h
  cases hr : first progress with
  | ok answer between =>
    rw [hr] at h
    exact hn answer between hr failure after h
  | error other between =>
    rw [hr] at h
    cases h
    exact hf failure after hr

/-- What follows an attempt knows what it has come to. -/
theorem foresees_attempt_bind {failure : ε → Failure} {result : Except ε α} {next : α → Work β}
    (h : ∀ error, result = .error error → Foreseen tree invocation reader (failure error))
    (hn : ∀ answer, result = .ok answer → Foresees tree invocation reader (next answer) progress) :
    Foresees tree invocation reader (attempt failure result >>= next) progress := by
  refine foresees_bind (foresees_attempt h) fun answer between hr => ?_
  obtain ⟨hresult, rfl⟩ := attempt_eq_ok_iff.1 hr
  exact hn answer hresult

end Rules

theorem culprit_of_partials {settings : Settings} {error : FileError}
    (hs : settings.partialsPath = none ∨ SettingsFor tree invocation reader settings)
    (h : partials tree settings = .error error) : Culprit tree invocation reader (.file error) := by
  unfold partials at h
  cases hp : settings.partialsPath with
  | none =>
    rw [hp] at h
    cases h
  | some path =>
    rw [hp] at h
    dsimp only at h
    unfold PartialDirectory.ofPath at h
    by_cases hn : path.hasNull = true
    · rw [if_pos hn] at h
      cases h
      -- who does not render has the default settings, in which no directory is named
      rcases hs with hnone | hs
      · rw [hp] at hnone
        cases hnone
      · exact .directory hs hp hn
    · rw [if_neg hn] at h
      cases h

theorem foresees_readTemplate {settings : Settings} {progress : Progress}
    (hs : settings.partialsPath = none ∨ SettingsFor tree invocation reader settings) :
    Foresees tree invocation reader (readTemplate tree (.ofText invocation.template) settings)
      progress := by
  unfold readTemplate
  refine foresees_attempt_bind (fun error he => ?_) fun found hfound => ?_
  · obtain ⟨rfl, hl⟩ := tooLong_of_probe he
    exact Culprit.tooLong (.inl .given) hl
  · cases found with
    | false => exact foresees_bind (foresees_throw (Complaint.missing hfound)) nofun
    | true =>
      refine foresees_attempt_bind (fun error he => culprit_of_partials hs he) fun loader _ => ?_
      refine foresees_attempt_bind (fun error he => ?_) fun source _ => ?_
      · obtain ⟨fault, content, rfl, ha, ht⟩ := not_isText_of_readText he
        exact Culprit.bytes (.inl .given) ha ht
      · exact foresees_bind (foresees_note _) fun _ _ _ => foresees_pure _

theorem foresees_document {source : String} {progress : Progress} (hc : invocation.command ≠ .check)
    (hr : tree.readText (.ofText invocation.template) = .ok (some source)) :
    Foresees tree invocation reader (attempt .user (Template.ofSource source).document) progress := by
  refine foresees_attempt fun error he => ?_
  obtain ⟨defect, hs, rfl⟩ := Template.parse_of_document he
  exact Complaint.template hc hr hs

theorem foresees_ofDatum {data : Yaml.Document} {progress : Progress}
    (hc : invocation.command = .render) (hd : DataFor tree invocation reader data) :
    Foresees tree invocation reader (attempt (fun error => .breakdown (.context (.numeral error)))
      (ContextStack.ofDatum data.graph data.root)) progress := by
  refine foresees_attempt fun error he => culprit_of_not_writable hc hd (fun hw => ?_) error
  unfold ContextStack.ofDatum at he
  split at he
  · cases he
  · refine hw.root (wrap_fails_iff.1 ?_)
    cases hwrap : Value.wrap data.graph data.root with
    | ok value =>
      rw [hwrap] at he
      cases he
    | error other => exact ⟨other, rfl⟩

theorem foresees_renderText {settings : Settings} {loader : Loader FileError} {source : String}
    {data : Yaml.Document} {progress : Progress} (hs : SettingsFor tree invocation reader settings)
    (hl : LoaderFor tree settings loader)
    (hr : tree.readText (.ofText invocation.template) = .ok (some source))
    (hd : DataFor tree invocation reader data) :
    Foresees tree invocation reader (renderText settings (.ofSource source) loader data) progress := by
  unfold renderText
  have hcheck : invocation.command ≠ .check := by
    rw [hs.command_eq]
    decide
  refine foresees_bind (foresees_ofDatum hs.command_eq hd) fun stack between hstack => ?_
  refine foresees_bind (foresees_document hcheck hr) fun document between hdocument => ?_
  refine foresees_bind (foresees_note _) fun _ between _ => ?_
  refine foresees_attempt_bind (fun error he => ?_) fun _ _ => foresees_pure _
  -- the walk is over the very document that the source in the file parses to
  have hparse : Template.parse source = .ok document :=
    Template.document_eq_ok_iff.1 (attempt_eq_ok_iff.1 hdocument).1
  have hsource : Source tree invocation reader settings loader document := ⟨hs, hl, source, hr, hparse⟩
  exact hsource.foreseen_of_render hd (attempt_eq_ok_iff.1 hstack).1 he

theorem foresees_renderedText {progress : Progress} (hc : invocation.command = .render) :
    Foresees tree invocation reader (renderedText tree invocation reader) progress := by
  unfold renderedText
  refine foresees_attempt_bind (fun error he => ?_) fun settings hs => ?_
  -- the command line only overrides what was loaded, so the failure is that of loading
  · have hload : Settings.load tree (settingsPath tree invocation) reader = .error error := by
      unfold CommandLine.settings at he
      cases hl : Settings.load tree (settingsPath tree invocation) reader with
      | ok configured =>
        rw [hl] at he
        cases he
      | error other =>
        rw [hl] at he
        cases he
        rfl
    exact foreseen_of_settings hc hload
  · have hsettings : SettingsFor tree invocation reader settings := ⟨hc, hs⟩
    refine foresees_bind (foresees_readTemplate (.inr hsettings)) fun ⟨template, loader⟩ between ht => ?_
    obtain ⟨source, hr, hl, rfl⟩ := readTemplate_eq_ok_iff.1 ⟨between, ht⟩
    refine foresees_attempt_bind (fun error he => ?_) fun data hd => ?_
    · unfold CommandLine.data at he
      cases hp : invocation.data with
      | none =>
        rw [hp] at he
        cases he
      | some path =>
        rw [hp] at he
        exact foreseen_of_load hc hp he
    · exact foresees_renderText hsettings hl hr (data_eq_ok_iff.1 hd)

theorem foresees_work (progress : Progress) :
    Foresees tree invocation reader (work tree invocation reader) progress := by
  unfold work
  dsimp only
  split
  · next hc =>
    exact foresees_bind (foresees_renderedText hc) fun text _ _ =>
      foresees_bind (foresees_write text) fun _ _ _ => foresees_pure _
  · next hc =>
    refine foresees_bind (foresees_readTemplate (.inl rfl)) fun ⟨template, loader⟩ between ht => ?_
    obtain ⟨source, hr, _, rfl⟩ := readTemplate_eq_ok_iff.1 ⟨between, ht⟩
    refine foresees_bind (foresees_document (by rw [hc]; decide) hr) fun document _ _ => ?_
    exact foresees_bind (foresees_write _) fun _ _ _ => foresees_pure _
  -- a defect is the answer to a check, so nothing is left that could fail
  · refine foresees_bind (foresees_readTemplate (.inl rfl)) fun ⟨template, loader⟩ between ht => ?_
    dsimp only
    split
    · exact foresees_pure _
    · exact foresees_pure _

/-! ## Conclusions -/

/-- What a command writes if all is well, with this document for its template. -/
inductive Result (tree : Tree) (invocation : Invocation) (reader : Yaml.Reader) (document : Document) :
    String → Prop
  | render {text : String} (hc : invocation.command = .render) (task : Task tree invocation reader)
    (ht : task.text = .ok text) : Result tree invocation reader document text
  | print (hc : invocation.command = .print) :
    Result tree invocation reader document (Listing.text document)
  | check (hc : invocation.command = .check) : Result tree invocation reader document ""

/-- How a command ends, with a log of what it has noticed. -/
inductive Conclusion (tree : Tree) (invocation : Invocation) (reader : Yaml.Reader) (log : String) :
    Outcome → Prop
  | done {output source : String} {document : Document}
    (hr : tree.readText (.ofText invocation.template) = .ok (some source))
    (hs : Template.parse source = .ok document) (ho : Result tree invocation reader document output) :
    Conclusion tree invocation reader log { output := output, reported := log, ending := .ok 0 }
  /-- A template was to be checked, and has a defect. -/
  | defective {source : String} {error : SyntaxError} (hc : invocation.command = .check)
    (hr : tree.readText (.ofText invocation.template) = .ok (some source))
    (hs : Template.parse source = .error error)
    (hl : (∀ name ∈ error.name?, OneLine name) → OneLine error.message) :
    Conclusion tree invocation reader log
      { reported := log ++ ((Path.ofText invocation.template).text ++ ": " ++ error.message ++ "\n")
        ending := .ok 1 }
  | refused {error : UserError} (h : Complaint tree invocation reader error)
    (hl : error.Terse → OneLine error.message) :
    Conclusion tree invocation reader log
      { reported := log ++ ("Error: " ++ error.message ++ "\n"), ending := .ok 2 }
  /-- Nothing is said of what the command was broken off by. -/
  | brokenOff {cause : Breakdown} (h : Culprit tree invocation reader cause) :
    Conclusion tree invocation reader log { reported := log, ending := .error cause }

theorem conclusion_of_failure (debug : Bool) {failure : Failure} {after : Progress}
    (hr : work tree invocation reader {} = .error failure after) :
    Conclusion tree invocation reader (log (invocation.verbose || debug) after.notices)
      (run tree debug invocation reader) := by
  rw [run_of_failure debug hr]
  have hf : Foreseen tree invocation reader failure := foresees_work {} failure after hr
  cases failure with
  | user error => exact .refused hf fun h => error.oneLine_message h.1
  | breakdown cause =>
    rw [Failure.reported, String.append_empty]
    exact .brokenOff hf

section Answers

variable {log : String} {answer : Answer} {after : Progress}

theorem of_write {text : String} {progress : Progress} (hw : progress.written = [])
    (hr : (do write text; return {} : Work Answer) progress = .ok answer after) :
    answer = {} ∧ after.output = text := by
  cases hr
  refine ⟨rfl, ?_⟩
  dsimp only [Progress.output]
  rw [hw]
  exact String.empty_append

theorem conclusion_of_render (hc : invocation.command = .render)
    (hr : work tree invocation reader {} = .ok answer after) :
    Conclusion tree invocation reader log
      { output := after.output, reported := log ++ answer.reported, ending := .ok answer.code } := by
  rw [work_of_render hc, bind_eq_ok_iff] at hr
  obtain ⟨text, between, htext, hwrite⟩ := hr
  have hwritten : between.written = [] := (silent_renderedText tree invocation reader).written_eq htext
  obtain ⟨task, ht⟩ := renderedText_eq_ok_iff.1 ⟨between, htext⟩
  obtain ⟨document, hdocument, _⟩ := Template.renderToString_eq_ok_iff.1 ht
  obtain ⟨rfl, rfl⟩ := of_write hwritten hwrite
  rw [String.append_empty]
  exact .done task.reads_source (Template.document_eq_ok_iff.1 hdocument) (.render hc task ht)

theorem conclusion_of_print (hc : invocation.command = .print)
    (hr : work tree invocation reader {} = .ok answer after) :
    Conclusion tree invocation reader log
      { output := after.output, reported := log ++ answer.reported, ending := .ok answer.code } := by
  unfold work at hr
  rw [hc, bind_eq_ok_iff] at hr
  obtain ⟨⟨template, loader⟩, between, htemplate, hr⟩ := hr
  have hwritten : between.written = [] := (silent_readTemplate tree _ {}).written_eq htemplate
  obtain ⟨source, hsource, _, rfl⟩ := readTemplate_eq_ok_iff.1 ⟨between, htemplate⟩
  obtain ⟨document, between, hattempt, hwrite⟩ := bind_eq_ok_iff.1 hr
  obtain ⟨hdocument, rfl⟩ := attempt_eq_ok_iff.1 hattempt
  obtain ⟨rfl, houtput⟩ := of_write hwritten hwrite
  rw [houtput, String.append_empty]
  exact .done hsource (Template.document_eq_ok_iff.1 hdocument) (.print hc)

theorem conclusion_of_check (hc : invocation.command = .check)
    (hr : work tree invocation reader {} = .ok answer after) :
    Conclusion tree invocation reader log
      { output := after.output, reported := log ++ answer.reported, ending := .ok answer.code } := by
  unfold work at hr
  rw [hc, bind_eq_ok_iff] at hr
  obtain ⟨⟨template, loader⟩, between, htemplate, hr⟩ := hr
  have hwritten : between.written = [] := (silent_readTemplate tree _ {}).written_eq htemplate
  have houtput : between.output = "" := by
    rw [Progress.output, hwritten]
    rfl
  obtain ⟨source, hsource, _, rfl⟩ := readTemplate_eq_ok_iff.1 ⟨between, htemplate⟩
  dsimp only at hr
  cases hs : Template.parse source with
  | ok document =>
    rw [if_pos (Template.isValid_of_parse hs)] at hr
    cases hr
    rw [houtput, String.append_empty]
    exact .done hsource hs (.check hc)
  | error defect =>
    obtain ⟨hinvalid, hmessage⟩ := Template.not_isValid_of_parse hs
    rw [hinvalid, if_neg Bool.false_ne_true, hmessage] at hr
    cases hr
    rw [houtput]
    exact .defective hc hsource hs defect.oneLine_message

end Answers

/-- **Every command concludes.** Exit codes are zero, one and two, each with what it stands for and with
a message, if there is something to say. A command ends without one only if there is a culprit: bytes
that are no text, a path that no file can have, a part of a YAML file that means nothing to its reader,
a number that is too long, or a position that is no decimal numeral. -/
theorem run_concludes (tree : Tree) (debug : Bool) (invocation : Invocation) (reader : Yaml.Reader) :
    ∃ notices, Conclusion tree invocation reader (log (invocation.verbose || debug) notices)
      (run tree debug invocation reader) := by
  cases hr : work tree invocation reader {} with
  | error failure after => exact ⟨after.notices, conclusion_of_failure debug hr⟩
  | ok answer after =>
    refine ⟨after.notices, ?_⟩
    have hrun : run tree debug invocation reader =
        { output := after.output
          reported := log (invocation.verbose || debug) after.notices ++ answer.reported
          ending := .ok answer.code } := by
      unfold run
      rw [hr]
    rw [hrun]
    cases hc : invocation.command with
    | render => exact conclusion_of_render hc hr
    | print => exact conclusion_of_print hc hr
    | check => exact conclusion_of_check hc hr

/-- In the file `t` there is a byte that no text in UTF-8 starts with. -/
def byteTree : Tree where
  root := .directory [("t", .file [0xff])]
  working := []

theorem ending_byteTree :
    (run byteTree false { command := .render, template := "t" }).ending =
      .error (.file (.undecodable ⟨0xff, 0, 1, .invalidStart⟩)) := by
  rfl

end CommandLine

end Stencil

import Stencil.CommandLine.Arguments
import Stencil.Listing
import Stencil.Partials.Directory
import Stencil.Settings
import Stencil.Template

/-!
# Commands

A command works on a file tree and ends with an exit code, what it has written, and what it has
reported. Rendering takes its settings from a file, then from the options; it reads the template,
then the data, and writes the text once it has it. Printing and checking need the template alone, and
only checking takes a defect of it for an answer.

Errors for the user are reported and end with the exit code two. Some faults of files and data are
no such errors; they break the command off.
-/

set_option autoImplicit false

namespace Stencil.CommandLine

open Files

inductive Breakdown
  | file (error : FileError)
  | yaml (fault : Yaml.Fault)
  | context (error : ContextError)
deriving DecidableEq, Repr

/-- Why a command does not do what it is for. -/
inductive Failure
  | user (error : UserError)
  | breakdown (cause : Breakdown)
deriving DecidableEq, Repr

def Failure.ofLoad : LoadError → Failure
  | .config error => .user (.config error)
  | .file error => .breakdown (.file error)
  | .yaml fault => .breakdown (.yaml fault)
  | .numeral error => .breakdown (.context (.numeral error))

def Failure.ofRender : RenderError Breakdown → Failure
  | .partialSyntax error => .user (.template error)
  | .tooDeep name limit => .user (.tooDeep name limit)
  | .item error => .breakdown (.context (.numeral error))
  | .host cause => .breakdown cause

/-- What is said about a failure. One that breaks the command off is left to speak for itself. -/
def Failure.reported : Failure → String
  | .user error => "Error: " ++ error.message ++ "\n"
  | .breakdown _ => ""

/-- How a failure ends a command. -/
def Failure.ending : Failure → Except Breakdown Nat
  | .user _ => .ok 2
  | .breakdown cause => .error cause

/-- What a command leaves behind. -/
structure Outcome where
  output : String := ""
  reported : String := ""
  /-- The exit code, unless the command was broken off. -/
  ending : Except Breakdown Nat
deriving Repr

/-- What a command has done so far, which stays whatever comes of it. -/
structure Progress where
  /-- The texts that it has written, latest first. -/
  written : List String := []
  /-- What it has noticed, latest first. -/
  notices : List Notice := []

/-- All that has been written, as one text. -/
def Progress.output (progress : Progress) : String := String.join progress.written.reverse

/-- A command at work. -/
abbrev Work := EStateM Failure Progress

def write (text : String) : Work Unit :=
  modify fun progress => { progress with written := text :: progress.written }

/-- Keeps some notices, latest first, with those before. -/
def note (notices : List Notice) : Work Unit :=
  modify fun progress => { progress with notices := notices ++ progress.notices }

/-- Lets an error of another sort be a failure. -/
def attempt {ε α : Type} (failure : ε → Failure) : Except ε α → Work α
  | .ok result => pure result
  | .error error => throw (failure error)

def ofFile (error : FileError) : Failure := .breakdown (.file error)

/-- The file with the settings, unless an option names one. -/
def defaultSettings : String := "stache.yaml"

/-- The path of the file with the settings. -/
def settingsPath (tree : Tree) (invocation : Invocation) : Path :=
  match invocation.config with
  | some path => .ofText path
  | none => (Path.ofPlace tree.working).join (.ofText defaultSettings)

def settings (tree : Tree) (invocation : Invocation) (reader : Yaml.Reader) :
    Except LoadError Settings :=
  (Settings.load tree (settingsPath tree invocation) reader).map fun settings =>
    let rendering := settings.rendering
    { settings with
      rendering := { rendering with escape := rendering.escape && !invocation.noEscape }
      partialsPath := (invocation.partials.map Path.ofText).or settings.partialsPath }

/-- The partials that the settings name; without a directory there are none. -/
def partials (tree : Tree) (settings : Settings) : Except FileError (Loader FileError) :=
  match settings.partialsPath with
  | none => .ok .empty
  | some path =>
    match PartialDirectory.ofPath tree path settings.partialsSuffix with
    | .ok directory => .ok (directory.loader tree)
    | .error error => .error error

/-- The template in a file, and the partials that go with it, which are looked for first. -/
def readTemplate (tree : Tree) (path : Path) (settings : Settings) :
    Work (Template × Loader FileError) := do
  if !(← attempt ofFile (tree.isFile path)) then throw (.user (.templateMissing path.text))
  let loader ← attempt ofFile (partials tree settings)
  let source ← attempt ofFile (tree.readText path)
  let template := Template.ofSource (source.getD "")
  note template.notices.reverse
  return (template, loader)

/-- A loader whose errors break the command off. -/
def breakable (loader : Loader FileError) : Loader Breakdown := fun name =>
  let answer := loader name
  (answer.1, answer.2.mapError .file)

/-- The text of a template over the data of a document. -/
def renderText (settings : Settings) (template : Template) (loader : Loader FileError)
    (data : Yaml.Document) : Work String := do
  let start ← attempt (fun error => .breakdown (.context (.numeral error)))
    (ContextStack.ofDatum data.graph data.root)
  let document ← attempt .user template.document
  let context : Context (ContextStack Nat) Breakdown Nat :=
    (Context.ofStack data.graph).zoom id (fun stack _ => stack) .context
  let rendering :=
    ({ options := settings.rendering } : Renderer).renderOver context (breakable loader) data.graph
      document start
  note rendering.world.notices
  attempt Failure.ofRender rendering.result
  return rendering.world.output

/-- The version of YAML that the file with the settings is in, by its minor number. -/
def settingsVersion (tree : Tree) (invocation : Invocation) (reader : Yaml.Reader) : Nat :=
  match DataFile.read? tree (settingsPath tree invocation) Yaml.currentMinor reader with
  | .ok (some document) => document.minor
  | _ => Yaml.currentMinor

/-- The data of a rendering; without a file there is an empty mapping. The file with the settings has
been read before. -/
def data (tree : Tree) (invocation : Invocation) (reader : Yaml.Reader) :
    Except LoadError Yaml.Document :=
  match invocation.data with
  | some path => DataFile.load tree (.ofText path) (settingsVersion tree invocation reader) reader
  | none => .ok { root := .container 0, cells := #[.mapping []] }

/-- The text that a command that renders is to write. -/
def renderedText (tree : Tree) (invocation : Invocation) (reader : Yaml.Reader) : Work String := do
  let settings ← attempt .ofLoad (settings tree invocation reader)
  let (template, loader) ← readTemplate tree (.ofText invocation.template) settings
  let data ← attempt .ofLoad (data tree invocation reader)
  renderText settings template loader data

/-- What a command reports besides notices, and its exit code. -/
structure Answer where
  reported : String := ""
  code : Nat := 0

def work (tree : Tree) (invocation : Invocation) (reader : Yaml.Reader) : Work Answer := do
  let path := Path.ofText invocation.template
  match invocation.command with
  | .render =>
    write (← renderedText tree invocation reader)
    return {}
  | .print =>
    let (template, _) ← readTemplate tree path {}
    write (Listing.text (← attempt .user template.document))
    return {}
  | .check =>
    let (template, _) ← readTemplate tree path {}
    if template.isValid then return {}
    return { reported := path.text ++ ": " ++ template.errorMessage ++ "\n", code := 1 }

/-- A notice as a line of the log. -/
def logLine (notice : Notice) : String := "[" ++ notice.level.word ++ "] " ++ notice.text ++ "\n"

/-- The log of some notices, latest first. Details are for those who asked for them. -/
def log (verbose : Bool) (notices : List Notice) : String :=
  String.join
    ((notices.reverse.filter fun notice => verbose || notice.level = .warning).map logLine)

/-- Runs a command; `debug` asks for details whatever the arguments say. -/
def run (tree : Tree) (debug : Bool) (invocation : Invocation)
    (reader : Yaml.Reader := Yaml.Document.ofText) : Outcome :=
  let verbose := invocation.verbose || debug
  match work tree invocation reader {} with
  | .ok answer progress =>
    { output := progress.output
      reported := log verbose progress.notices ++ answer.reported
      ending := .ok answer.code }
  | .error failure progress =>
    { output := progress.output
      reported := log verbose progress.notices ++ failure.reported
      ending := failure.ending }

end Stencil.CommandLine

import Stencil.Proofs.CommandLine.Output
import Stencil.Proofs.Files.Access
import Stencil.Proofs.Render.Ending

/-!
# What is to blame if a command fails

A command that fails has complained about something that the user gave it (`Complaint`), or it was
broken off, and then there is a culprit (`Culprit`): bytes that are not UTF-8, a path that is too long
or that no file can have, a part of a YAML file that has no meaning to the reader, a number too long to
be written, or a position in a list that is not a decimal numeral.

The templates that a command reads are the one that it is given and those that these include
(`TemplateAt`), and what is said of a tag is said of one of these.
-/

set_option autoImplicit false

namespace Stencil

/-! ## Tags, data and paths -/

/-- A tag of this type and this name is among those of the document. -/
def Document.HasTag (document : Document) (type : TagType) (name : String) : Prop :=
  ∃ depth, (depth, type, name) ∈ document.tagSequence

/-- The data are a mapping with this entry. -/
def Yaml.Document.HasEntry (data : Yaml.Document) (entry : Literal × Datum Nat) : Prop :=
  ∃ reference entries ordered, data.root = .container reference ∧
    data.graph reference = .mapping entries ordered ∧ entry ∈ entries

/-- The value is of the sort that an option expects. -/
def Datum.Fits {ν : Type} (expected : String) : Datum ν → Prop
  | .scalar (.bool _) => expected = "bool"
  | .scalar (.int _) => expected = "int"
  | .scalar (.text _) => expected = "str"
  | _ => False

/-- Nothing in the data is a number too long to be written. -/
structure Yaml.Document.Writable (data : Yaml.Document) : Prop where
  graph : data.graph.Written
  root : ¬ data.root.Valueless data.graph

namespace CommandLine

open Files

/-! ## What a command reads -/

/-- The settings of a command that renders. -/
structure SettingsFor (tree : Tree) (invocation : Invocation) (reader : Yaml.Reader)
    (settings : Settings) : Prop where
  command_eq : invocation.command = .render
  settings_eq : CommandLine.settings tree invocation reader = .ok settings

/-- The directory of partials of a command that renders. -/
def DirectoryFor (tree : Tree) (invocation : Invocation) (reader : Yaml.Reader)
    (directory : PartialDirectory) : Prop :=
  ∃ settings path, SettingsFor tree invocation reader settings ∧
    settings.partialsPath = some path ∧
    PartialDirectory.ofPath tree path settings.partialsSuffix = .ok directory

/-- Where a command that renders looks for data. -/
inductive DataAt (tree : Tree) (invocation : Invocation) : Path → Prop
  | settings (h : invocation.command = .render) : DataAt tree invocation (settingsPath tree invocation)
  | data {path : String} (h : invocation.command = .render) (hd : invocation.data = some path) :
    DataAt tree invocation (.ofText path)

/-- Where a command looks for templates: at the path that it is given, and at the paths of the partials
that a template includes, as far as they are in their directory. -/
inductive TemplateAt (tree : Tree) (invocation : Invocation) (reader : Yaml.Reader) : Path → Prop
  | given : TemplateAt tree invocation reader (.ofText invocation.template)
  | included {path : Path} {source name : String} {document : Document}
    {directory : PartialDirectory} (h : TemplateAt tree invocation reader path)
    (hr : tree.readText path = .ok (some source)) (hs : Template.parse source = .ok document)
    (ht : document.HasTag .inclusion name) (hd : DirectoryFor tree invocation reader directory)
    (hi : directory.contains ((directory.pathOf name).resolve []) = true) :
    TemplateAt tree invocation reader (.ofPlace ((directory.pathOf name).resolve []))

/-- A tag of this type and this name is in a template that the command looks for. -/
def TagAt (tree : Tree) (invocation : Invocation) (reader : Yaml.Reader) (type : TagType)
    (name : String) : Prop :=
  ∃ path source document, TemplateAt tree invocation reader path ∧
    tree.readText path = .ok (some source) ∧ Template.parse source = .ok document ∧
    document.HasTag type name

/-! ## What is to blame -/

/-- The options that there are, with the sorts of their values. -/
def options : List (String × String) :=
  [("escape", "bool"), ("max_partial_depth", "int"), ("partials_dir", "str"), ("partials_suffix", "str")]

/-- Why a file of settings or data is not read. -/
inductive Unreadable (tree : Tree) (reader : Yaml.Reader) (path : Path) : ConfigError → Prop
  | directory {entries : List (String × Entry)} (ha : tree.access path = .ok (.directory entries)) :
    Unreadable tree reader path (.unreadable path.text (FileError.isDirectory path.text).message)
  | malformed {content : List UInt8} {text : String} {minor : Nat}
    (ha : tree.access path = .ok (.file content)) (ht : textOfPieces content = .ok text)
    (hf : reader text minor = .error .malformed) : Unreadable tree reader path (.invalidYaml path.text)

/-- What is wrong with an option that a file of settings has. -/
inductive BadOption {ν : Type} (path : Path) (graph : Graph ν) (entry : Literal × Datum ν) :
    ConfigError → Prop
  | unknown {name : String} (hk : ∀ option ∈ options, entry.1.text? ≠ some option.1)
    (hn : entry.1.written = .ok name) : BadOption path graph entry (.unknownOption path.text name)
  | sort {key expected : String} (hk : entry.1.text? = some key) (ho : (key, expected) ∈ options)
    (hv : ¬ entry.2.Fits expected) :
    BadOption path graph entry (.wrongType path.text key expected (entry.2.sort graph))

/-- What is wrong with settings that have been read. -/
inductive Misset (path : Path) (data : Yaml.Document) : ConfigError → Prop
  | notMapping (hh : data.root.holds data.graph = true)
    (hm : ∀ reference entries ordered, data.root = .container reference →
      data.graph reference ≠ .mapping entries ordered) : Misset path data (.notMapping path.text)
  | option {entry : Literal × Datum Nat} {error : ConfigError} (he : data.HasEntry entry)
    (hb : BadOption path data.graph entry error) : Misset path data error
  | limit {entry : Literal × Datum Nat} {limit : Int} (he : data.HasEntry entry)
    (hk : entry.1.text? = some "max_partial_depth") (hv : entry.2 = .scalar (.int limit))
    (hl : limit < 1) : Misset path data (.limitTooLow path.text)

/-- What a command complains about. -/
inductive Complaint (tree : Tree) (invocation : Invocation) (reader : Yaml.Reader) : UserError → Prop
  | missing (h : tree.isFile (.ofText invocation.template) = .ok false) :
    Complaint tree invocation reader (.templateMissing (Path.ofText invocation.template).text)
  /-- Whoever asks whether the template is one gets an answer instead. -/
  | template {source : String} {error : SyntaxError} (hc : invocation.command ≠ .check)
    (hr : tree.readText (.ofText invocation.template) = .ok (some source))
    (hs : Template.parse source = .error error) :
    Complaint tree invocation reader (.notValid (some error))
  | partialTemplate {path : Path} {source : String} {error : SyntaxError}
    (hp : TemplateAt tree invocation reader path) (hr : tree.readText path = .ok (some source))
    (hs : Template.parse source = .error error) : Complaint tree invocation reader (.template error)
  | tooDeep {settings : Settings} {name : String} (hs : SettingsFor tree invocation reader settings)
    (ht : TagAt tree invocation reader .inclusion name) :
    Complaint tree invocation reader (.tooDeep name settings.rendering.inclusionLimit)
  | unreadable {path : Path} {error : ConfigError} (hp : DataAt tree invocation path)
    (hu : Unreadable tree reader path error) : Complaint tree invocation reader (.config error)
  | noData {path : String} (hc : invocation.command = .render) (hd : invocation.data = some path)
    (ha : ∀ entry, tree.access (.ofText path) ≠ .ok entry) :
    Complaint tree invocation reader (.config (.dataMissing (Path.ofText path).text))
  | settings {data : Yaml.Document} {error : ConfigError} (hc : invocation.command = .render)
    (hr : DataFile.read? tree (settingsPath tree invocation) Yaml.currentMinor reader = .ok (some data))
    (hm : Misset (settingsPath tree invocation) data error) :
    Complaint tree invocation reader (.config error)

/-- What breaks a command off. -/
inductive Culprit (tree : Tree) (invocation : Invocation) (reader : Yaml.Reader) : Breakdown → Prop
  /-- A template, a file of settings or a file of data is not UTF-8. -/
  | bytes {path : Path} {content : List UInt8} {fault : Text.Utf8.Fault}
    (hp : TemplateAt tree invocation reader path ∨ DataAt tree invocation path)
    (ha : tree.access path = .ok (.file content)) (ht : ¬ IsText content) :
    Culprit tree invocation reader (.file (.undecodable fault))
  | tooLong {path : Path} (hp : TemplateAt tree invocation reader path ∨ DataAt tree invocation path)
    (hl : path.TooLong) : Culprit tree invocation reader (.file (.nameTooLong path.text))
  /-- The directory of partials cannot be one. -/
  | directory {settings : Settings} {path : Path} (hs : SettingsFor tree invocation reader settings)
    (hp : settings.partialsPath = some path) (hn : path.hasNull = true) :
    Culprit tree invocation reader (.file .embeddedNull)
  /-- A partial is included that no file can hold. -/
  | partialName {directory : PartialDirectory} {name : String}
    (hd : DirectoryFor tree invocation reader directory)
    (ht : TagAt tree invocation reader .inclusion name)
    (hn : (directory.pathOf name).hasNull = true) :
    Culprit tree invocation reader (.file .embeddedNull)
  /-- A file of settings or data is YAML up to a part that has no meaning, or that the reader gives up
  on. -/
  | meaning {path : Path} {content : List UInt8} {text : String} {minor : Nat} {fault : Yaml.Fault}
    (hp : DataAt tree invocation path) (ha : tree.access path = .ok (.file content))
    (ht : textOfPieces content = .ok text) (hf : reader text minor = .error fault)
    (hm : fault ≠ .malformed) : Culprit tree invocation reader (.yaml fault)
  /-- A number in the settings or in the data is too long to be written. -/
  | number {path : Path} {data : Yaml.Document} {minor : Nat} {error : NumeralError}
    (hp : DataAt tree invocation path) (hr : DataFile.read? tree path minor reader = .ok (some data))
    (hw : ¬ data.Writable) : Culprit tree invocation reader (.context (.numeral error))
  /-- A name that a template looks up has a part that would be a position but is not a decimal
  numeral. -/
  | position {tag : Tag} {error : NumeralError} (ht : TagAt tree invocation reader tag.type tag.name)
    (hc : tag.Consults) (hn : ¬ Numbered tag.name) :
    Culprit tree invocation reader (.context (.numeral error))

/-- What is foreseen of a failure. -/
def Foreseen (tree : Tree) (invocation : Invocation) (reader : Yaml.Reader) : Failure → Prop
  | .user error => Complaint tree invocation reader error
  | .breakdown cause => Culprit tree invocation reader cause

end CommandLine

end Stencil

import Stencil.DataFile

/-!
# Settings

The settings of a rendering can come from a file, a mapping with up to four options. An option that
is unknown, or whose value is of the wrong sort, is an error, the first one in the file; so is a
limit of the inclusion depth below one, if nothing else is wrong. A file without data, or whose data
does not count as true, has no options, and options that are not given keep their defaults.

The directory of partials is found from where the file is.
-/

set_option autoImplicit false

namespace Stencil

open Files

structure Settings where
  rendering : RenderOptions := {}
  partialsPath : Option Path := none
  partialsSuffix : String := ".mustache"
deriving DecidableEq, Repr

def Scalar.sort : Scalar → String
  | .null => "NoneType"
  | .bool _ => "bool"
  | .int _ => "int"
  | .float _ => "float"
  | .text _ => "str"
  | .foreign value => value.sort

def Datum.sort {ν : Type} (graph : Graph ν) : Datum ν → String
  | .scalar value => value.sort
  | .container reference =>
    match graph reference with
    | .list _ => "list"
    | .mapping _ false => "dict"
    | .mapping _ true => "ordereddict"
    | .set _ => "set"
    | .record _ _ => "object"

namespace Settings

variable {ν : Type}

/-- What is wrong with an option that is not known. -/
def unknownOption (path : Path) (key : Literal) : LoadError :=
  match key.written with
  | .ok name => .config (.unknownOption path.text name)
  | .error error => .numeral error

/-- The settings with one option of a file at a path taken into account. -/
def set (path : Path) (graph : Graph ν) (settings : Settings) (entry : Literal × Datum ν) :
    Except LoadError Settings :=
  let wrong (name expected : String) : Except LoadError Settings :=
    .error (.config (.wrongType path.text name expected (entry.2.sort graph)))
  match entry.1.text?, entry.2 with
  | some "escape", .scalar (.bool flag) =>
    .ok { settings with rendering := { settings.rendering with escape := flag } }
  | some "escape", _ => wrong "escape" "bool"
  | some "max_partial_depth", .scalar (.int limit) =>
    .ok { settings with rendering := { settings.rendering with inclusionLimit := limit } }
  | some "max_partial_depth", _ => wrong "max_partial_depth" "int"
  | some "partials_dir", .scalar (.text directory) =>
    .ok { settings with partialsPath := some (path.parent.join (.ofText directory)) }
  | some "partials_dir", _ => wrong "partials_dir" "str"
  | some "partials_suffix", .scalar (.text suffix) =>
    .ok { settings with partialsSuffix := suffix }
  | some "partials_suffix", _ => wrong "partials_suffix" "str"
  | _, _ => .error (unknownOption path entry.1)

/-- The settings that the options of a file at a path make. -/
def ofEntries (path : Path) (graph : Graph ν) (entries : List (Literal × Datum ν)) :
    Except LoadError Settings :=
  match entries.foldlM (set path graph) {} with
  | .ok settings =>
    if settings.rendering.inclusionLimit < 1 then .error (.config (.limitTooLow path.text))
    else .ok settings
  | .error error => .error error

/-- The settings that the data in a file at a path denotes. -/
def ofDatum (path : Path) (graph : Graph ν) (data : Datum ν) : Except LoadError Settings :=
  if !data.holds graph then .ok {}
  else
    match data with
    | .scalar _ => .error (.config (.notMapping path.text))
    | .container reference =>
      match graph reference with
      | .mapping entries _ => ofEntries path graph entries
      | _ => .error (.config (.notMapping path.text))

/-- The settings in the file at a path; the defaults if nothing is there. -/
def load (tree : Tree) (path : Path) (reader : Yaml.Reader := Yaml.Document.ofText) :
    Except LoadError Settings :=
  match DataFile.read? tree path Yaml.currentMinor reader with
  | .ok (some document) => ofDatum path document.graph document.root
  | .ok none => .ok {}
  | .error error => .error error

end Settings

end Stencil

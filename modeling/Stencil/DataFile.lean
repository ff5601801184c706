import Stencil.Files.Tree
import Stencil.UserError
import Stencil.Yaml.Document

/-!
# Files of data

Data for templates and settings are kept in YAML files, of which JSON files are a kind. A file that
is missing, unreadable or not YAML is the user's to put right; bytes that are no text, and scalars
that denote nothing, are faults of the file that are reported as they are.

A file can say which version of YAML it is in. One that does not is in the version of the file read
before it.

What is made of a file is told over any reader of YAML, since readers differ in what they follow, for
one in how deep data may be nested. `Yaml.Document.ofText` is the one that is used where none is named.
-/

set_option autoImplicit false

namespace Stencil

open Files

/-- Why a file of data cannot be used. -/
inductive LoadError
  | config (error : ConfigError)
  | file (error : FileError)
  | yaml (fault : Yaml.Fault)
  /-- A key that would have to be written in a message, but is a number too long for that. -/
  | numeral (error : NumeralError)
deriving DecidableEq, Repr

namespace DataFile

/-- The data that the bytes of a file denote. -/
def ofBytes (path : String) (bytes : List UInt8) (minor : Nat) (reader : Yaml.Reader) :
    Except LoadError Yaml.Document :=
  match textOfPieces bytes with
  | .error fault => .error (.file (.undecodable fault))
  | .ok text =>
    match reader text minor with
    | .ok document => .ok document
    | .error .malformed => .error (.config (.invalidYaml path))
    | .error fault => .error (.yaml fault)

/-- The data in the file at a path, if something is there. -/
def read? (tree : Tree) (path : Path) (minor : Nat) (reader : Yaml.Reader) :
    Except LoadError (Option Yaml.Document) :=
  match tree.access path with
  | .ok (.file content) => (ofBytes path.text content minor reader).map some
  | .ok (.directory _) =>
    .error (.config (.unreadable path.text (FileError.isDirectory path.text).message))
  | .error .nameTooLong => .error (.file (.nameTooLong path.text))
  | .error _ => .ok none

/-- The data for a template. There has to be a file; one without data denotes an empty mapping. -/
def load (tree : Tree) (path : Path) (minor : Nat := Yaml.currentMinor)
    (reader : Yaml.Reader := Yaml.Document.ofText) : Except LoadError Yaml.Document :=
  match read? tree path minor reader with
  | .ok (some document) =>
    match document.root with
    | .scalar .null => .ok { root := .container 0, cells := #[.mapping []] }
    | _ => .ok document
  | .ok none => .error (.config (.dataMissing path.text))
  | .error error => .error error

end DataFile

end Stencil

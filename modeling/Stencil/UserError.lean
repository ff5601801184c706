import Stencil.Render.Host

/-!
# Errors for the user

Everything that a user can put right ends in one of these errors, each with a message of one
sentence.
-/

set_option autoImplicit false

namespace Stencil

/-- What is wrong with a file of options or data. -/
inductive ConfigError
  | dataMissing (path : String)
  | unreadable (path reason : String)
  | invalidYaml (path : String)
  | notMapping (path : String)
  | unknownOption (path key : String)
  | wrongType (path key expected got : String)
  | limitTooLow (path : String)
  | other (message : String)
deriving DecidableEq, Repr

def ConfigError.message : ConfigError → String
  | .dataMissing path => "Data file not found: " ++ path
  | .unreadable path reason => path ++ ": cannot read file: " ++ reason
  | .invalidYaml path => path ++ ": invalid YAML"
  | .notMapping path => path ++ ": expected a mapping at top level"
  | .unknownOption path key => path ++ ": unknown option '" ++ key ++ "'"
  | .wrongType path key expected got =>
    path ++ ": option '" ++ key ++ "' expects " ++ expected ++ ", got " ++ got
  | .limitTooLow path => path ++ ": option 'max_partial_depth' must be at least 1"
  | .other message => message

inductive UserError
  | template (error : SyntaxError)
  /-- Something was asked of a template that could not be read. -/
  | notValid (cause : Option SyntaxError)
  | tooDeep (name : String) (limit : Int)
  | config (error : ConfigError)
  | templateMissing (path : String)
  | other (message : String)
deriving DecidableEq, Repr

def UserError.message : UserError → String
  | .template error => error.message
  | .notValid cause =>
    "template is not valid: " ++ (cause.map SyntaxError.message).getD "unknown error"
  | .tooDeep name limit => tooDeepMessage name limit
  | .config error => error.message
  | .templateMissing path => "Template not found: " ++ path
  | .other message => message

end Stencil

import Stencil.CommandLine.Arguments

/-!
# What the command line says about itself
-/

set_option autoImplicit false

namespace Stencil.CommandLine

def programName : String := "stache"

def versionText : String := programName ++ " 0.1.0\n"

def usageText : String :=
  "usage: " ++ programName ++ " [-h] [-V] [-v] COMMAND ...\n"

def helpText : String :=
  usageText ++ "\n" ++
  "Mustache-style template renderer\n\n" ++
  "commands:\n" ++
  "  render TEMPLATE   render a template to the standard output\n" ++
  "    --data FILE     YAML or JSON data file\n" ++
  "    --config FILE   options file\n" ++
  "    --partials DIR  directory with partial templates\n" ++
  "    --no-escape     do not escape the values of plain variables\n" ++
  "  print TEMPLATE    print the parsed node tree\n" ++
  "  check TEMPLATE    exit 0 if the template parses, 1 otherwise\n\n" ++
  "options:\n" ++
  "  -h, --help        show this message\n" ++
  "  -V, --version     show the version\n" ++
  "  -v, --verbose     show what is going on\n"

/-- What is written when the arguments lead to no command, and the exit code. -/
def Stop.answer : Stop → String × Nat
  | .help => (helpText, 0)
  | .version => (versionText, 0)
  | .misuse => (usageText, 2)

end Stencil.CommandLine

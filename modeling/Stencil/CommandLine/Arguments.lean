import Stencil.Text.Digit

/-!
# The arguments of the command line

The arguments name a command and one template for it, between options. What an option is called may
be cut short as long as it stays clear, a value can be attached to a long option by an equals sign,
and options of one letter can be written together. After two dashes everything is an operand.

Options count from the left: the first that asks for help or for the version settles the matter,
unless something before it cannot be understood. What cannot be used, such as a second operand, is
only held against the user at the end.
-/

set_option autoImplicit false

namespace Stencil.CommandLine

inductive Switch
  | help
  | version
  | verbose
  | noEscape
  | data
  | config
  | partials
deriving DecidableEq, Repr

def Switch.takesValue : Switch → Bool
  | .data => true
  | .config => true
  | .partials => true
  | _ => false

/-- Options by name. None whose name is one letter takes a value. -/
abbrev Options := List (String × Switch)

def helpOptions : Options := [("-h", .help), ("--help", .help)]

def mainOptions : Options :=
  helpOptions ++
    [("-V", .version), ("--version", .version), ("-v", .verbose), ("--verbose", .verbose)]

def renderOptions : Options :=
  helpOptions ++
    [("--data", .data), ("--config", .config), ("--partials", .partials),
      ("--no-escape", .noEscape)]

/-! ## Words -/

/-- What is written in one argument with an option. -/
structure Attachment where
  /-- Whether an equals sign stands between the two. -/
  byEquals : Bool
  text : String
deriving DecidableEq, Repr

/-- What an argument is taken for. -/
inductive Word
  | operand
  /-- Two dashes, the first time. -/
  | separator
  /-- An option that is written with one dash or two, and what is attached to it. -/
  | option (short : Bool) (switch : Switch) (attached : Option Attachment)
  | unknownOption
deriving DecidableEq, Repr

/-- Whether a text is a number with a minus sign. -/
def isNegativeNumber : List Char → Bool
  | '-' :: rest =>
    match rest.dropWhile Text.isDecimal with
    | [] => !rest.isEmpty
    | '.' :: fraction => !fraction.isEmpty && fraction.all Text.isDecimal
    | _ => false
  | _ => false

/-- The name in an argument, and the value after an equals sign. -/
def splitValue (argument : List Char) : String × Option Attachment :=
  let name := String.ofList (argument.takeWhile (· != '='))
  match argument.dropWhile (· != '=') with
  | _ :: value => (name, some ⟨true, String.ofList value⟩)
  | [] => (name, none)

/-- The options that an argument can stand for: those that a long one is the start of the name of, or
that the letter of a short one names, with letters of further ones attached. -/
def candidates (options : Options) (argument : List Char) : List Word :=
  if argument.take 2 == ['-', '-'] then
    let (name, attached) := splitValue argument
    (options.filter fun option => name.toList.isPrefixOf option.1.toList).map fun option =>
      .option false option.2 attached
  else
    (options.filter fun option => option.1.toList == argument.take 2).map fun option =>
      .option true option.2 (some ⟨false, String.ofList (argument.drop 2)⟩)

/-- What an argument is taken for; nothing if it could be more than one option. A dash starts an
option, except in a negative number or before a space. -/
def Word.ofArgument? (options : Options) (argument : String) : Option Word :=
  let chars := argument.toList
  match chars with
  | '-' :: second :: _ =>
    let short := second != '-'
    let (name, attached) := splitValue chars
    match options.lookup argument, options.lookup name with
    | some switch, _ => some (.option short switch none)
    | none, some switch => some (.option short switch attached)
    | none, none =>
      match candidates options chars with
      | [word] => some word
      | _ :: _ :: _ => none
      | [] => some (if isNegativeNumber chars || chars.contains ' ' then .operand else .unknownOption)
  | _ => some .operand

abbrev Words := List (String × Word)

def Words.ofArguments? (options : Options) : List String → Option Words
  | [] => some []
  | argument :: rest =>
    if argument == "--" then
      some ((argument, .separator) :: rest.map fun argument => (argument, .operand))
    else do
      let word ← Word.ofArgument? options argument
      let words ← Words.ofArguments? options rest
      return (argument, word) :: words

def Words.dropSeparator : Words → Words
  | (_, .separator) :: rest => rest
  | words => words

theorem Words.length_dropSeparator_le (words : Words) :
    words.dropSeparator.length ≤ words.length := by
  unfold dropSeparator
  split <;> simp

/-! ## What the arguments say -/

inductive Stop
  | help
  | version
  | misuse
deriving DecidableEq, Repr

structure Request where
  verbose : Bool := false
  noEscape : Bool := false
  data : Option String := none
  config : Option String := none
  partials : Option String := none
  operand : Option String := none
  /-- Whether there was something that cannot be used. -/
  excess : Bool := false
deriving DecidableEq, Repr

namespace Request

/-- Takes an option without a value into account. -/
def turn (request : Request) : Switch → Except Stop Request
  | .help => .error .help
  | .version => .error .version
  | .verbose => .ok { request with verbose := true }
  | .noEscape => .ok { request with noEscape := true }
  | _ => .error .misuse

/-- Takes an option with a value into account. -/
def setValue (request : Request) (switch : Switch) (value : String) : Request :=
  match switch with
  | .data => { request with data := some value }
  | .config => { request with config := some value }
  | .partials => { request with partials := some value }
  | _ => request

/-- The options that an option and the letters attached to it stand for, and whether a letter comes
that is none. No value can follow the letters. -/
def cluster (options : Options) (switch : Switch) : List Char → Option (List Switch × Bool)
  | [] => some ([switch], false)
  | letter :: rest =>
    if letter == '=' || letter == '-' then none
    else
      match options.lookup (String.ofList ['-', letter]) with
      | none => some ([switch], true)
      | some next => (cluster options next rest).map fun found => (switch :: found.1, found.2)

/-- Takes an option that is not followed by a value into account. -/
def use (options : Options) (request : Request) (short : Bool) (switch : Switch) :
    Option Attachment → Except Stop Request
  | none => request.turn switch
  | some attached =>
    if switch.takesValue then .ok (request.setValue switch attached.text)
    else if !short || attached.byEquals || attached.text.isEmpty then .error .misuse
    else
      match cluster options switch attached.text.toList with
      | some (switches, excess) =>
        switches.foldlM turn { request with excess := request.excess || excess }
      | none => .error .misuse

/-- The arguments of a command. Two dashes go with the operand that they stand next to. -/
def readCommand (options : Options) (request : Request) (words : Words) : Except Stop Request :=
  match words with
  | [] => .ok request
  | (argument, .operand) :: rest =>
    if request.operand.isSome then readCommand options { request with excess := true } rest
    else
      have := Words.length_dropSeparator_le rest
      readCommand options { request with operand := some argument } (Words.dropSeparator rest)
  | (_, .separator) :: (argument, .operand) :: rest =>
    readCommand options
      (if request.operand.isSome then { request with excess := true }
        else { request with operand := some argument })
      rest
  | (_, .separator) :: rest => readCommand options { request with excess := true } rest
  | (_, .unknownOption) :: rest => readCommand options { request with excess := true } rest
  | (_, .option short switch attached) :: rest =>
    if switch.takesValue && attached.isNone then
      match rest with
      | (value, .operand) :: others => readCommand options (request.setValue switch value) others
      | _ => .error .misuse
    else
      match request.use options short switch attached with
      | .ok request => readCommand options request rest
      | .error stop => .error stop
termination_by words.length

end Request

inductive Command
  | render
  | print
  | check
deriving DecidableEq, Repr

def Command.ofName? : String → Option Command
  | "render" => some .render
  | "print" => some .print
  | "check" => some .check
  | _ => none

def Command.options : Command → Options
  | .render => renderOptions
  | _ => helpOptions

structure Invocation where
  command : Command
  template : String
  verbose : Bool := false
  noEscape : Bool := false
  data : Option String := none
  config : Option String := none
  partials : Option String := none
deriving DecidableEq, Repr

/-- What a command and its arguments ask for. -/
def Invocation.ofCommand (request : Request) (name : String) (arguments : List String) :
    Except Stop Invocation :=
  match Command.ofName? name with
  | none => .error .misuse
  | some command =>
    match Words.ofArguments? command.options arguments with
    | none => .error .misuse
    | some words => do
      let request ← request.readCommand command.options words
      match request.operand with
      | none => .error .misuse
      | some template =>
        if request.excess then .error .misuse
        else
          return {
            command, template, verbose := request.verbose, noEscape := request.noEscape
            data := request.data, config := request.config, partials := request.partials }

/-- The arguments before the command, and then the command. -/
def Invocation.ofWords (request : Request) : Words → Except Stop Invocation
  | [] => .error .misuse
  | (name, .operand) :: rest => ofCommand request name (rest.map Prod.fst)
  | (_, .separator) :: _ => .error .misuse
  | (_, .unknownOption) :: rest => ofWords { request with excess := true } rest
  | (_, .option short switch attached) :: rest =>
    match request.use mainOptions short switch attached with
    | .ok request => ofWords request rest
    | .error stop => .error stop

def Invocation.ofArguments (arguments : List String) : Except Stop Invocation :=
  match Words.ofArguments? mainOptions arguments with
  | none => .error .misuse
  | some words => ofWords {} words

end Stencil.CommandLine

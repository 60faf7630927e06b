/-!
# Command-line arguments

`check`, `format`, `generate` and `ast`, each with one file, and the option
`--config PATH`, which may stand before the command or behind it. Arguments
are read from left to right. What has been read is only checked when the
next argument or the end shows that it is complete (`settle`), which decides
which of two faults is reported.
-/

namespace WorkflowScript

inductive Command where
  | check | format | generate | ast
deriving Repr, DecidableEq

def Command.name : Command → String
  | .check => "check"
  | .format => "format"
  | .generate => "generate"
  | .ast => "ast"

def Command.ofName? (name : String) : Option Command :=
  [check, format, generate, ast].find? fun c => c.name == name

/-- What a command line asks for. -/
structure Invocation where
  command : Command
  file : String
  settingsPath : Option String
deriving Repr, DecidableEq

/-- Why a command line is not carried out. Asking for help is one reason. -/
inductive UsageError where
  | noArguments
  | missingCommand
  | unknownCommand
  | missingFile
  | unknownArgument
  | invalidValue
  | tooManyValues
  | repeatedOption
  | helpRequested
deriving Repr, DecidableEq

namespace Arguments

/-- An option, as far as its first letter or its name tells. -/
inductive Flag where
  | long (name : String) (value : Option String)
  | short (letter : Char)
deriving Repr, DecidableEq

/-- What an argument looks like. A single dash is a plain argument. -/
inductive Shape where
  | separator
  | flag (f : Flag)
  | plain
deriving Repr, DecidableEq

/-- The name and the value of a long option. -/
def longFlag (text : List Char) : Flag :=
  match text.dropWhile (· ≠ '=') with
  | [] => .long (String.ofList text) none
  | _ :: value => .long (String.ofList (text.takeWhile (· ≠ '='))) (some (String.ofList value))

def shape (argument : String) : Shape :=
  match argument.toList with
  | ['-', '-'] => .separator
  | '-' :: '-' :: rest => .flag (longFlag rest)
  | '-' :: letter :: _ => .flag (.short letter)
  | _ => .plain

/-- Something that has been read and not yet been checked. -/
inductive Pending where
  | nothing
  /-- The option `--config`, and its value once it has come. -/
  | config (value : Option String)
  | file (path : String)
deriving Repr, DecidableEq

/-- What has been read on one side of the command. -/
structure Progress where
  config : Option String
  file : Option String
  pending : Pending
deriving Repr, DecidableEq

namespace Progress

def empty : Progress := ⟨none, none, .nothing⟩

/-- Takes the value of the option, which may be given once. -/
def takeConfig (p : Progress) (value : String) : Except UsageError Progress :=
  if p.config.isSome then .error .repeatedOption else .ok { p with config := some value }

/-- Checks what has not been checked yet. -/
def settle (p : Progress) : Except UsageError Progress :=
  let rest := { p with pending := .nothing }
  match p.pending with
  | .nothing => .ok rest
  | .config none => .error .invalidValue
  | .config (some value) => rest.takeConfig value
  | .file path => if path.isEmpty then .error .invalidValue else .ok { rest with file := some path }

/-- Whether the next plain argument is the value of an option. -/
def awaitsValue (p : Progress) : Bool := p.pending = .config none

/-- Whether a file has been named. -/
def hasFile (p : Progress) : Bool :=
  p.file.isSome ||
    match p.pending with
    | .file _ => true
    | _ => false

/-- Reads an option. One that nobody knows is reported at once, whatever
is still unchecked. -/
def option (p : Progress) : Flag → Except UsageError Progress
  | .long "config" none => do
    let p ← p.settle
    pure { p with pending := .config none }
  | .long "config" (some value) => do
    let p ← p.settle
    p.takeConfig value
  | .long "help" none | .short 'h' => do
    let _ ← p.settle
    throw .helpRequested
  | .long "help" (some _) => throw .tooManyValues
  | _ => throw .unknownArgument

/-- Reads a plain argument behind the command. -/
def positional (p : Progress) (argument : String) : Except UsageError Progress :=
  if p.hasFile then throw .unknownArgument
  else do
    let p ← p.settle
    pure { p with pending := .file argument }

end Progress

/-- Reads what stands behind the command; `literal` holds behind `--`,
where nothing is an option. -/
def readOperands (literal : Bool) (p : Progress) : List String → Except UsageError Progress
  | [] => do
    let p ← p.settle
    if p.file.isNone then throw .missingFile else pure p
  | argument :: rest =>
    if literal then do
      let p ← p.positional argument
      readOperands true p rest
    else
      match shape argument with
      | .separator => readOperands true p rest
      | .flag f => do
        let p ← p.option f
        readOperands false p rest
      | .plain =>
        if p.awaitsValue then readOperands false { p with pending := .config (some argument) } rest
        else do
          let p ← p.positional argument
          readOperands false p rest

/-- What `help` and the arguments behind it ask for. -/
def helpError : List String → UsageError
  | [] => .helpRequested
  | [topic] =>
    if topic = "help" ∨ (Command.ofName? topic).isSome then .helpRequested else .unknownCommand
  | _ => .unknownCommand

/-- The report when no command comes. -/
def withoutCommand (p : Progress) : UsageError :=
  match p.settle with
  | .error e => e
  | .ok p => if p.config.isNone then .noArguments else .missingCommand

/-- The report on a line whose command would stand behind `--`. -/
def behindSeparator (p : Progress) : List String → UsageError
  | [] => withoutCommand p
  | argument :: _ =>
    if argument = "help" ∨ (Command.ofName? argument).isSome then .unknownArgument
    else .unknownCommand

/-- Reads a line up to the command, and then what stands behind it. The
option counts once on each side; the later side wins. -/
def readFrom (p : Progress) : List String → Except UsageError Invocation
  | [] => .error (withoutCommand p)
  | argument :: rest =>
    match shape argument with
    | .separator => .error (behindSeparator p rest)
    | .flag f => do
      let p ← p.option f
      readFrom p rest
    | .plain =>
      if p.awaitsValue then readFrom { p with pending := .config (some argument) } rest
      else
        match Command.ofName? argument with
        | some command => do
          let operands ← readOperands false .empty rest
          let p ← p.settle
          pure ⟨command, operands.file.getD "", operands.config <|> p.config⟩
        | none => if argument = "help" then .error (helpError rest) else .error .unknownCommand

end Arguments

/-- What the arguments ask for. -/
def Invocation.ofArguments (arguments : List String) : Except UsageError Invocation :=
  Arguments.readFrom .empty arguments

end WorkflowScript

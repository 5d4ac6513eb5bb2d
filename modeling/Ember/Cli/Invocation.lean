import Ember.Cli.Arguments

/-!
# Invocations

What the program is asked to do by its argument list: options for all commands, a
command, and what belongs to the command. `Invocation.ofArguments` reads it; asking
for help, and a list that is refused, end the program before it does anything.
-/

namespace Ember.Cli

/-- A command by its name. -/
inductive CommandName where
  | run
  | tokens
  | parse
  | repl
deriving DecidableEq, Repr

namespace CommandName

/-- All commands in order. -/
def all : List CommandName := [run, tokens, parse, repl]

/-- The name of a command. -/
def text : CommandName → String
  | run => "run"
  | tokens => "tokens"
  | parse => "parse"
  | repl => "repl"

/-- The command with a name. -/
def ofText? (text : String) : Option CommandName :=
  all.find? fun c => c.text = text

end CommandName

/-! ## Levels -/

/-- What the operands of an argument list are. -/
inductive Operands where
  | none
  /-- One file. -/
  | file
  /-- A command, to which everything behind it belongs. -/
  | command
deriving DecidableEq, Repr

/-- A part of the argument list that is read by one grammar. -/
structure Level where
  program : String
  operands : Operands
  grammar : Grammar
  /-- The line or lines that show the form of the arguments. -/
  usage : String
  /-- What follows them when help is asked for. -/
  details : String
deriving DecidableEq, Repr

/-- The option that asks for help. -/
def helpSwitch : Switch := { flag := .help, names := ["-h", "--help"] }

/-- The option that asks for diagnostics as JSON. -/
def jsonSwitch : Switch := { flag := .json, names := ["--json"] }

/-- How the program is called. -/
def programName : String := "python -m ember"

/-- The level of the program itself. -/
def topLevel : Level where
  program := programName
  operands := .command
  grammar := [
    helpSwitch,
    { flag := .version, names := ["--version"] },
    { flag := .config, names := ["-c", "--config"], takesValue := true },
    { flag := .verbose, names := ["-v", "--verbose"] }]
  usage :=
    "usage: " ++ programName ++ " [-h] [--version] [-c FILE] [-v]\n" ++
    "                       \x7brun,tokens,parse,repl\x7d ...\n"
  details :=
    "Ember interpreter\n" ++
    "\n" ++
    "positional arguments:\n" ++
    "  \x7brun,tokens,parse,repl\x7d\n" ++
    "    run                 Evaluate a source file\n" ++
    "    tokens              Print the token stream\n" ++
    "    parse               Parse and print the program\n" ++
    "    repl                Start an interactive session\n" ++
    "\n" ++
    "options:\n" ++
    "  -h, --help            show this help message and exit\n" ++
    "  --version             show program's version number and exit\n" ++
    "  -c FILE, --config FILE\n" ++
    "                        YAML configuration file (default: $EMBER_CONFIG)\n" ++
    "  -v, --verbose         Enable debug logging\n"

/-- The help on the file of a command. -/
def fileDetails : String :=
  "positional arguments:\n" ++
  "  file        Source file ('-' for stdin)\n" ++
  "\n"

/-- The help on the options that every command has. -/
def optionDetails : String :=
  "options:\n" ++
  "  -h, --help  show this help message and exit\n"

/-- The help on the option for JSON. -/
def jsonDetails : String :=
  "  --json      Print diagnostics as JSON on stdout\n"

/-- The level of a command. -/
def CommandName.level (c : CommandName) : Level :=
  let program := programName ++ " " ++ c.text
  match c with
  | run => {
      program
      operands := .file
      grammar := [helpSwitch, jsonSwitch]
      usage := "usage: " ++ program ++ " [-h] [--json] file\n"
      details := fileDetails ++ optionDetails ++ jsonDetails }
  | tokens => {
      program
      operands := .file
      grammar := [helpSwitch]
      usage := "usage: " ++ program ++ " [-h] file\n"
      details := fileDetails ++ optionDetails }
  | parse => {
      program
      operands := .file
      grammar := [helpSwitch, { flag := .tree, names := ["--tree"] }, jsonSwitch]
      usage := "usage: " ++ program ++ " [-h] [--tree] [--json] file\n"
      details := fileDetails ++ optionDetails ++
        "  --tree      Print the AST structure instead of source form\n" ++ jsonDetails }
  | repl => {
      program
      operands := .none
      grammar := [helpSwitch]
      usage := "usage: " ++ program ++ " [-h]\n"
      details := optionDetails }

/-- The help on a level. -/
def Level.help (l : Level) : String :=
  l.usage ++ "\n" ++ l.details

/-! ## Reading a level -/

/-- Why a program ends over its argument list. -/
inductive Stop where
  | help (level : Level)
  | version
  | refused (level : Level) (cause : ArgumentsCause)
deriving DecidableEq, Repr

/-- What was read of a level. -/
structure Reading where
  given : List Given := []
  operands : List String := []
  /-- What belongs nowhere. -/
  extras : List String := []
deriving DecidableEq, Repr

namespace Reading

/-- Whether an option was given. -/
def has (r : Reading) (f : Flag) : Bool :=
  r.given.any fun g => g.flag = f

/-- The value that was given last for an option. -/
def value? (r : Reading) (f : Flag) : Option String :=
  (r.given.reverse.find? fun g => g.flag = f).bind Given.value

/-- A reading with one more argument that belongs nowhere. -/
def withExtra (r : Reading) (argument : String) : Reading :=
  { r with extras := r.extras ++ [argument] }

/-- A reading with the options of a word; the first that asks for help or the version
ends it. -/
def withOptions (r : Reading) (l : Level) (w : OptionWord) : Except Stop Reading :=
  match w.given.find? fun g => g.flag = .help ∨ g.flag = .version with
  | some { flag := .help, .. } => .error (.help l)
  | some _ => .error .version
  | none => .ok { r with given := r.given ++ w.given, extras := r.extras ++ w.leftover }

/-- The operand at the front of a level that has room for one, and the arguments
behind it. A separator in front of it or right behind it is no operand. -/
def takeOperand? (l : Level) (r : Reading) : List (String × Word) →
    Option (List String × List (String × Word))
  | (argument, word) :: rest =>
    match l.operands with
    | .none => none
    | .command =>
      if word = .operand ∨ ¬rest.isEmpty then some (argument :: rest.map Prod.fst, []) else none
    | .file =>
      if r.operands.isEmpty then
        match word, rest with
        | .operand, (_, .separator) :: rest => some ([argument], rest)
        | .operand, rest => some ([argument], rest)
        | .separator, (behind, _) :: rest => some ([behind], rest)
        | _, _ => none
      else none
  | [] => none

/-- Reads the words of a level, of which there are at most `n`. -/
def readWords (l : Level) (r : Reading) : Nat → List (String × Word) → Except Stop Reading
  | 0, _ | _, [] => .ok r
  | n + 1, (argument, word) :: rest =>
    match word with
    | .unknown => readWords l (r.withExtra argument) n rest
    | .option s name attached =>
      match readOption l.grammar rest.head? s name attached with
      | .error cause => .error (.refused l cause)
      | .ok w =>
        match r.withOptions l w with
        | .error stop => .error stop
        | .ok r => readWords l r n (if w.usesNext then rest.tail else rest)
    | .operand | .separator =>
      match takeOperand? l r ((argument, word) :: rest) with
      | some (operands, rest) => readWords l { r with operands } n rest
      | none => readWords l (r.withExtra argument) n rest

/-- Reads the arguments of a level. -/
def ofArguments (l : Level) (arguments : List String) : Except Stop Reading :=
  match words l.grammar arguments with
  | .error cause => .error (.refused l cause)
  | .ok ws => readWords l {} ws.length ws

end Reading

/-! ## Invocations -/

/-- What is asked for. -/
inductive Command where
  | run (file : String) (asJson : Bool)
  | tokens (file : String)
  | parse (file : String) (asTree asJson : Bool)
  | repl
deriving DecidableEq, Repr

/-- The file that a command reads. -/
def Command.file? : Command → Option String
  | run file _ | tokens file | parse file _ _ => some file
  | repl => none

/-- A command with the options for all commands. -/
structure Invocation where
  config : Option String := none
  verbose : Bool := false
  command : Command
deriving DecidableEq, Repr

/-- The command of a name with what was read for it. -/
def CommandName.command (c : CommandName) (r : Reading) : Except Stop Command :=
  match c, r.operands.head? with
  | repl, _ => .ok .repl
  | c, none => .error (.refused c.level (.missing "file"))
  | run, some file => .ok (.run file (r.has .json))
  | tokens, some file => .ok (.tokens file)
  | parse, some file => .ok (.parse file (r.has .tree) (r.has .json))

/-- Reads an argument list. -/
def Invocation.ofArguments (arguments : List String) : Except Stop Invocation := do
  let top ← Reading.ofArguments topLevel arguments
  match top.operands with
  | [] => .error (.refused topLevel (.missing "action"))
  | name :: rest =>
    match CommandName.ofText? name with
    | none =>
      .error (.refused topLevel (.unknownCommand name (CommandName.all.map CommandName.text)))
    | some c =>
      let inner ← Reading.ofArguments c.level rest
      let command ← c.command inner
      match top.extras ++ inner.extras with
      | [] => return { config := top.value? .config, verbose := top.has .verbose, command }
      | extras => .error (.refused topLevel (.unrecognized extras))

end Ember.Cli

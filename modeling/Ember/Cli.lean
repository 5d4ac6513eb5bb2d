import Ember.Cli.Invocation
import Ember.Node.Dump
import Ember.Repl
import Ember.Settings.Load

/-!
# The command line

What the program writes and how it ends, for an argument list and what there is
around it: files, variables and an input. `Invocation.perform` does what is asked
for, and `execute` adds the reading of the argument list.
-/

namespace Ember.Cli

/-- What there is around a run of the program. -/
structure Surroundings where
  stack : Stack := .standard
  files : Files
  environment : Environment := []
  input : String := ""

/-- What ends a run without a status. -/
inductive RunFault where
  | loading (error : LoadError)
  | encoding (error : Text.Utf8Error)
  | program (fault : Fault)
deriving DecidableEq, Repr

/-- The text of what ends a run. -/
def RunFault.message : RunFault → String
  | loading error => error.message
  | encoding error => error.message
  | program fault => fault.message

/-- How a run ends. -/
inductive Ending where
  /-- The command is done, with this status. -/
  | status (code : Nat)
  /-- The argument list ended the run, with this status. -/
  | exit (code : Nat)
  | fault (fault : RunFault)
deriving DecidableEq, Repr

/-- What a run writes, and how it ends. -/
structure Result where
  output : String := ""
  errors : String := ""
  ending : Ending := .status 0
deriving DecidableEq, Repr

namespace Result

/-- A result with more errors in front. -/
def behindErrors (text : String) (r : Result) : Result :=
  { r with errors := text ++ r.errors }

/-- A result with log entries in front, if they are asked for. -/
def logged (verbose : Bool) (log : List LogEntry) (r : Result) : Result :=
  if verbose then r.behindErrors (String.join (log.map LogEntry.render)) else r

/-- The result of a complaint in one line. -/
def complaint (code : Nat) (message : String) : Result :=
  { errors := "Error: " ++ message ++ "\n", ending := .status code }

/-- The result of something that went wrong inside. -/
def ofFault (fault : RunFault) : Result :=
  { ending := .fault fault }

/-- The result of diagnostics, for a tool or for a reader. -/
def ofDiagnostics (s : Settings) (asJson : Bool) (diagnostics : List Diagnostic) : Result :=
  let report : Report :=
    { limit := diagnostics.length + 1, diagnostics := diagnostics.toArray }
  if asJson then { output := report.toJson.render ++ "\n", ending := .status 1 }
  else { errors := report.render s.showSource ++ "\n", ending := .status 1 }

end Result

/-! ## Commands -/

/-- The name of a file that stands for the input. -/
def inputName : String := "-"

/-- The source that a file name stands for. -/
def Surroundings.source (w : Surroundings) (file : String) : Except TextFileError Source :=
  if file = inputName then .ok { text := Text.withLineFeeds w.input }
  else (w.files.readText file).map fun text => { text, file := some file }

/-- Evaluates a source and writes its value. -/
def runSource (stack : Stack) (s : Settings) (verbose asJson : Bool) (source : Source) : Result :=
  let (evaluated, _) := Heap.initial.evaluate Heap.globalFrame source (Repl.limits s)
  let result : Result := match Heap.Evaluated.result evaluated with
    | .error fault => .ofFault (.program fault)
    | .ok (.finished none) => {}
    | .ok (.finished (some value)) =>
      match value.displayOn stack with
      | .ok text => { output := text ++ "\n" }
      | .error fault => .ofFault (.program fault)
    | .ok outcome => .ofDiagnostics s asJson outcome.diagnostics
  result.logged verbose (Heap.Evaluated.logEntries evaluated)

/-- Writes the tokens of a source. -/
def showTokens (source : Source) : Result :=
  { output := String.join (source.tokens.map fun t => t.render ++ "\n") }

/-- Parses a source and writes the program. -/
def parseSource (s : Settings) (verbose asTree asJson : Bool) (source : Source) : Result :=
  match source.parse (Repl.limits s) with
  | .error fault => .ofFault (.program fault)
  | .ok parsed =>
    let node := parsed.program.toNode
    let result : Result :=
      if parsed.problems.isEmpty then
        { output := (if asTree then node.dump else node.print) ++ "\n" }
      else .ofDiagnostics s asJson (parsed.diagnostics source)
    result.logged verbose parsed.logEntries

/-- A session on the input. -/
def runSession (w : Surroundings) (s : Settings) (verbose : Bool) : Result :=
  let transcript := Repl.run w.stack s (Text.withLineFeeds w.input)
  let ending := match transcript.fault with
    | some fault => .fault (.program fault)
    | none => .status 0
  ({ output := transcript.output, ending } : Result).logged verbose transcript.log

/-- Performs a command under settings. -/
def Command.perform (w : Surroundings) (s : Settings) (verbose : Bool) (c : Command) : Result :=
  let onSource (file : String) (act : Source → Result) : Result :=
    match w.source file with
    | .ok source => act source
    | .error (.file e) => .complaint 1 e.message
    | .error (.encoding e) => .ofFault (.encoding e)
  match c with
  | .run file asJson => onSource file (runSource w.stack s verbose asJson)
  | .tokens file => onSource file showTokens
  | .parse file asTree asJson => onSource file (parseSource s verbose asTree asJson)
  | .repl => runSession w s verbose

/-- Loads the settings and performs what is asked for. -/
def Invocation.perform (w : Surroundings) (i : Invocation) : Result :=
  match Settings.load Yaml.read w.stack.room w.files i.config w.environment with
  | .ok s => (i.command.perform w s i.verbose).logged i.verbose s.logEntries
  | .error e =>
    match e.cause? with
    | some cause => .complaint 2 cause.message
    | none => .ofFault (.loading e)

/-! ## The program -/

/-- The result of an argument list that asks for nothing to be done. -/
def Stop.result : Stop → Result
  | .help level => { output := level.help, ending := .exit 0 }
  | .version => { output := programName ++ " " ++ Ember.version ++ "\n", ending := .exit 0 }
  | .refused level cause =>
    { errors := level.usage ++ level.program ++ ": error: " ++ cause.message ++ "\n"
      ending := .exit 2 }

/-- The whole program. -/
def execute (w : Surroundings) (arguments : List String) : Result :=
  match Invocation.ofArguments arguments with
  | .ok i => i.perform w
  | .error stop => stop.result

end Ember.Cli

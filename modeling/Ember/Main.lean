import Ember.Cli

/-!
# The program on a machine

Hands the arguments, the variables, the files and the input of the machine to the
command line, and writes what comes of it. A session that is typed is answered line
by line.
-/

open Ember

/-- The number of an error of the machine, which some of its calls give negated. -/
def errorNumber (code : UInt32) : Nat :=
  if code < 0x80000000 then code.toNat else (-code).toNat

/-- The bytes of a file of the machine. -/
def fileBytes (path : String) : IO (Except FileError (List UInt8)) := do
  try
    return .ok (← IO.FS.readBinFile path).toList
  catch
    | .noFileOrDirectory .. => return .error (.notFound path)
    | .inappropriateType _ code reason =>
      let number := errorNumber code
      return .error <|
        if number = (FileError.notADirectory path).number then .notADirectory path
        else if number = (FileError.isADirectory path).number then .isADirectory path
        else .other number reason path
    | .permissionDenied _ code _ =>
      return .error (.other (errorNumber code) "Permission denied" path)
    | e => return .error (.other 5 (toString e) path)

/-- The variables of the machine that the program looks at. -/
def environmentOfMachine : IO Environment := do
  let names := settingsFileVariable :: Setting.all.map Setting.variable
  let values ← names.mapM fun name => do
    return (← IO.getEnv name).map (name, ·)
  return values.filterMap id

/-- All that is left of the input. -/
partial def readInput (input : IO.FS.Stream) (read : String) : IO String := do
  let line ← input.getLine
  if line.isEmpty then return read else readInput input (read ++ line)

/-- Writes a result and returns the status of the program. -/
def finish (r : Cli.Result) : IO UInt32 := do
  IO.print r.output
  IO.eprint r.errors
  match r.ending with
  | .status code | .exit code => return code.toUInt32
  | .fault fault =>
    IO.eprintln fault.message
    return 1

/-- Writes log entries, if they are asked for. -/
def writeLog (verbose : Bool) (log : List LogEntry) : IO Unit :=
  if verbose then log.forM fun entry => IO.eprint entry.render else return

/-- Answers the lines of the input one by one. -/
partial def converse (s : Settings) (verbose : Bool) (input : IO.FS.Stream) (h : Heap) :
    IO UInt32 := do
  IO.print s.prompt
  (← IO.getStdout).flush
  let line ← input.getLine
  if line.isEmpty then
    IO.println ""
    return 0
  match Repl.answer .standard s h line with
  | .leave => return 0
  | .go h text log =>
    writeLog verbose log
    match text with
    | .ok text =>
      IO.print text
      converse s verbose input h
    | .error fault =>
      IO.eprintln fault.message
      return 1

/-- The program. -/
def main (arguments : List String) : IO UInt32 := do
  match Cli.Invocation.ofArguments arguments with
  | .error stop => finish stop.result
  | .ok i =>
    let environment ← environmentOfMachine
    let settingsFile := (Settings.filePath? i.config environment).map Settings.tidyPath
    let paths := settingsFile.toList ++ i.command.file?.toList
    let files := Files.ofAnswers (← paths.mapM fun path => do return (path, ← fileBytes path))
    let input ← IO.getStdin
    let loaded := Settings.load Yaml.read Stack.standard.room files i.config environment
    match i.command, loaded with
    | .repl, .ok s =>
      writeLog i.verbose s.logEntries
      IO.print (Repl.banner s)
      converse s i.verbose input Heap.initial
    | command, _ =>
      let text ← if command.file? = some Cli.inputName then readInput input "" else pure ""
      finish (i.perform { files, environment, input := text })

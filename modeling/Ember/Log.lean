import Ember.Session
import Ember.Settings

/-!
# What a program run logs

A user may ask what a run does inside. An entry names the part of the program that
speaks; each entry is one line.
-/

namespace Ember

/-- A part of the program that speaks. -/
inductive Speaker where
  | cli
  | parser
  | evaluator
deriving DecidableEq, Repr

/-- The name of a part. -/
def Speaker.name : Speaker → String
  | cli => "ember.cli"
  | parser => "ember.parser"
  | evaluator => "ember.runtime.interpreter"

/-- What a part says. -/
structure LogEntry where
  speaker : Speaker
  text : String
deriving DecidableEq, Repr

/-- An entry as a line. -/
def LogEntry.render (e : LogEntry) : String :=
  "DEBUG " ++ e.speaker.name ++ ": " ++ e.text ++ "\n"

/-- What is said about a parse. -/
def Parsed.logEntries (p : Parsed) : List LogEntry :=
  p.log.map fun text => { speaker := .parser, text }

/-- What is said about an outcome. -/
def Outcome.logEntries : Outcome → List LogEntry
  | .failed .tooDeep _ =>
    [{ speaker := .evaluator, text := "evaluation exceeded the recursion limit" }]
  | .failed _ diagnostic =>
    [{ speaker := .evaluator, text := "evaluation failed: " ++ diagnostic.message }]
  | _ => []

/-- What is said about the evaluation of a source. -/
def Heap.Evaluated.logEntries (e : Except Fault Heap.Evaluated) : List LogEntry :=
  match e with
  | .error _ => []
  | .ok e =>
    e.parsed.logEntries ++
      match e.outcome with
      | .ok outcome => outcome.logEntries
      | .error _ => []

/-- What is said about settings; nothing if they cannot be shown. -/
def Settings.logEntries (s : Settings) : List LogEntry :=
  match s.render with
  | .ok text => [{ speaker := .cli, text := "configuration: " ++ text }]
  | .error _ => []

end Ember

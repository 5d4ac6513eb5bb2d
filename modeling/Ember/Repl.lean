import Ember.Log

/-!
# Interactive sessions

A session reads one line after the other and answers each against one heap.
`Repl.answer` is one line's answer; `Repl.run` is a whole session on a text that is
there from the start.
-/

namespace Ember

/-- The version of this program. -/
def version : String := "0.3.0"

namespace Repl

/-- What is written at the start of a session. -/
def banner (s : Settings) : String :=
  "Ember " ++ version ++ ". Type '" ++ s.exitKeyword ++ "' to quit.\n"

/-- The limits of a session. -/
def limits (s : Settings) : Limits :=
  { problems := s.maxErrors, depth := s.recursionLimit }

/-- What is written about an outcome, with this stack. -/
def report (stack : Stack) : Outcome → Except Fault String
  | .rejected diagnostics =>
    .ok (String.join ("syntax error(s):\n" :: diagnostics.map fun d => "\t" ++ d.message ++ "\n"))
  | .failed _ diagnostic => .ok ("error[" ++ diagnostic.code ++ "]: " ++ diagnostic.message ++ "\n")
  | .finished none => .ok ""
  | .finished (some value) => return (← value.displayOn stack) ++ "\n"

/-- What a line does to a session. -/
inductive Reply where
  /-- The line ends the session. -/
  | leave
  /-- The session goes on after a text is written. -/
  | go (heap : Heap) (text : Except Fault String) (log : List LogEntry)

/-- Whether a line ends the session. -/
def isExit (s : Settings) (line : String) : Bool :=
  Text.lowerCase line = Text.lowerCase s.exitKeyword

section

variable (stack : Stack) (s : Settings)

/-- Answers a line, the blanks around which count for nothing. A loop may make so many rounds. -/
def answer (h : Heap) (line : String) (rounds : Nat := loopBound) : Reply :=
  let line := Text.trim line
  if line.isEmpty then .go h (.ok "") []
  else if isExit s line then .leave
  else
    let (evaluated, h) := h.evaluate Heap.globalFrame { text := line } (limits s) rounds
    .go h (Heap.Evaluated.result evaluated >>= report stack) (Heap.Evaluated.logEntries evaluated)

end

/-- How a session went: all that was written, what was logged, and the fault that
ended it, if one did. -/
structure Transcript where
  output : String := ""
  log : List LogEntry := []
  fault : Option Fault := none
deriving DecidableEq, Repr

/-- A transcript with more in front. -/
def Transcript.behind (output : String) (log : List LogEntry) (t : Transcript) : Transcript :=
  { t with output := output ++ t.output, log := log ++ t.log }

section

variable (stack : Stack) (s : Settings)

/-- A session on lines, from a heap on. The end of the lines is answered by an empty
line. -/
def runLines (rounds : Nat) (h : Heap) : List String → Transcript
  | [] => { output := s.prompt ++ "\n" }
  | line :: lines =>
    match answer stack s h line rounds with
    | .leave => { output := s.prompt }
    | .go h (.ok text) log => (runLines rounds h lines).behind (s.prompt ++ text) log
    | .go _ (.error fault) log => { output := s.prompt, log, fault := some fault }

/-- The lines of an input; the last one need not be ended. -/
def inputLines (input : String) : List String :=
  let lines := (input.toList.splitOn '\n').map String.ofList
  if lines.getLast? = some "" then lines.dropLast else lines

/-- A session on an input. -/
def run (input : String) (rounds : Nat := loopBound) : Transcript :=
  (runLines stack s rounds Heap.initial (inputLines input)).behind (banner s) []

end

end Repl

end Ember

import Ember.Eval
import Ember.Parse

/-!
# Sessions

Sources are evaluated one after the other against one heap. A source with
problems is not evaluated at all. `Heap.evaluate` does all of it for one source;
`Heap.run` evaluates a program that was parsed before.
-/

namespace Ember

/-- The rounds that a loop may make, more than any machine lives to see. -/
def loopBound : Nat := Nat.pow 2 62

/-- How the evaluation of a source or program went. -/
inductive Outcome where
  /-- The source has problems; nothing was evaluated. -/
  | rejected (diagnostics : List Diagnostic)
  /-- The evaluation failed. -/
  | failed (cause : RuntimeCause) (diagnostic : Diagnostic)
  /-- The evaluation came to its end, with a value or without. -/
  | finished (value : Option Value)
deriving Repr

namespace Outcome

/-- Whether there is nothing to complain about. -/
def isSuccess : Outcome → Bool
  | finished _ => true
  | _ => false

/-- The value that came out. -/
def value? : Outcome → Option Value
  | finished value => value
  | _ => none

/-- All that is said about the source. -/
def diagnostics : Outcome → List Diagnostic
  | rejected diagnostics => diagnostics
  | failed _ diagnostic => [diagnostic]
  | finished _ => []

/-- The messages about problems of the text. -/
def syntaxMessages : Outcome → List String
  | rejected diagnostics => diagnostics.map Diagnostic.message
  | _ => []

/-- What went wrong, in one line. -/
def summary? : Outcome → Option String
  | rejected diagnostics => some ("; ".intercalate (diagnostics.map Diagnostic.message))
  | failed _ diagnostic => some diagnostic.message
  | finished _ => none

/-- The outcome with the line of the given source quoted, where a place is known
and no line is quoted yet. -/
def quoting (s : Source) : Outcome → Outcome
  | failed cause d =>
    let line := match d.sourceLine, d.span with
      | none, some span => s.line? span.start.line
      | line, _ => line
    failed cause { d with sourceLine := line }
  | other => other

end Outcome

namespace Heap

/-- Evaluates a program in a frame, with at most `rounds` rounds of a loop. -/
def run (h : Heap) (frame : FrameId) (p : Program) (depthLimit : Int := 10000)
    (rounds : Nat := loopBound) : Except Fault Outcome × Heap :=
  match depthBudget depthLimit with
  | .error fault => (.error fault, h)
  | .ok depth =>
    match evalNode rounds depth p.toNode frame h with
    | .ok value h => (.ok (.finished value), h)
    | .error (.failed cause span) h => (.ok (.failed cause (cause.diagnostic span)), h)
    | .error .tooDeep h =>
      (.ok (.failed .tooDeep (RuntimeCause.tooDeep.diagnostic p.span)), h)
    | .error (.fault fault) h => (.error fault, h)

/-- What became of a source: its parse, and the evaluation of the program. -/
structure Evaluated where
  parsed : Parsed
  outcome : Except Fault Outcome
deriving Repr

/-- Parses a source and, if it has no problems, evaluates it in a frame. -/
def evaluate (h : Heap) (frame : FrameId) (s : Source) (limits : Limits := {})
    (rounds : Nat := loopBound) : Except Fault Evaluated × Heap :=
  match s.parse limits with
  | .error fault => (.error fault, h)
  | .ok parsed =>
    if parsed.problems.isEmpty then
      let (outcome, h) := h.run frame parsed.program limits.depth rounds
      (.ok { parsed, outcome := outcome.map (Outcome.quoting s) }, h)
    else (.ok { parsed, outcome := .ok (.rejected (parsed.diagnostics s)) }, h)

end Heap

/-- How the evaluation of a source went; a fault at any stage is the answer. -/
def Heap.Evaluated.result (e : Except Fault Heap.Evaluated) : Except Fault Outcome :=
  e.bind Heap.Evaluated.outcome

end Ember

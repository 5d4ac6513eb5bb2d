import Ember.Depth
import Ember.Parse.Rule
import Ember.Token.Scan

/-!
# Parsing a program

A program is a sequence of statements up to the end of the text. A statement that
is not understood leaves problems behind and the parse goes on with the next
token, until there are too many problems or the nesting is too deep.
-/

namespace Ember

/-- How a parse ended. -/
inductive ParseEnd where
  /-- At the end of the text. -/
  | complete
  /-- At the limit on the number of problems. -/
  | problemLimit
  /-- At the limit on the nesting, at this place. -/
  | tooDeep (place : Location)
deriving DecidableEq, Repr

/-- What a parse found. -/
structure Parsed where
  program : Program
  problems : Array Problem
  ending : ParseEnd
deriving Repr

/-- What may be asked of a parse and an evaluation. -/
structure Limits where
  /-- The number of problems that ends a parse. -/
  problems : Int := 20
  /-- The limit on the nesting. -/
  depth : Int := 10000
deriving DecidableEq, Repr

/-- Statements up to the end of the text or to a limit. -/
def parseStatements (problemLimit : Int) (depth : Nat) (found : Array Node) :
    Nat → Window → Except Fault (Array Node × ParseEnd × Window)
  | 0, w => .ok (found, .complete, w)
  | n + 1, w =>
    if w.current.kind = .endOfText then .ok (found, .complete, w)
    else
      match parsePhrase depth .statement w with
      | .error (.literalTooLong digits) _ => .error (.literalTooLong digits)
      | .error .tooDeep w =>
        .ok (found, .tooDeep w.current.span.start, w.note .tooDeep w.current w.current)
      | .ok statement w =>
        let found := if statement.isMissing then found else found.push statement
        if problemLimit ≤ w.problems.size then .ok (found, .problemLimit, w)
        else parseStatements problemLimit depth found n w.advance

/-- Parses tokens, the last of which is the end of the text. -/
def parseTokens (problemLimit : Int) (depth : Nat) (tokens : List Token) :
    Except Fault Parsed := do
  let w := Window.ofTokens tokens
  let (statements, ending, last) ← parseStatements problemLimit depth #[] (tokens.length + 1) w
  let span : Span := ⟨w.current.span.start, last.current.span.stop⟩
  return {
    program := { span := some span, statements := statements.toList }
    problems := last.problems
    ending }

/-- Parses a source. -/
def Source.parse (s : Source) (limits : Limits := {}) : Except Fault Parsed := do
  let depth ← depthBudget limits.depth
  parseTokens limits.problems depth s.tokens

namespace Parsed

/-- The diagnostics of a parse of the given source. -/
def diagnostics (p : Parsed) (s : Source) : List Diagnostic :=
  p.problems.toList.map (·.diagnostic s)

/-- What a parse says about itself when asked to. -/
def log (p : Parsed) : List String :=
  let count := toString p.problems.size
  let stop := match p.ending with
    | .complete => []
    | .problemLimit => ["stopping after " ++ count ++ " syntax error(s)"]
    | .tooDeep place => ["nesting exceeded the recursion limit at " ++ place.render]
  stop ++
    ["parsed " ++ toString p.program.statements.length ++ " statement(s), " ++ count ++ " error(s)"]

end Parsed

end Ember

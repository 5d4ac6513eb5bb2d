import Ember.Diagnostic.Cause
import Ember.Heap

/-!
# Evaluation

A tree is evaluated in a frame. Statements take effect on the heap in order, and
what they did stays done when a later one fails. Evaluation nests at most as
deeply as it is given levels for, and a loop makes at most `rounds` rounds.

The rules are written over `self`, the evaluation of what stands inside;
`evalTask` ties the knot, one level of nesting at a time.
-/

namespace Ember

/-- Why an evaluation ends early. -/
inductive EvalStop where
  /-- The program did something that has no meaning. -/
  | failed (cause : RuntimeCause) (span : Option Span)
  /-- The nesting is deeper than the limit allows. -/
  | tooDeep
  | fault (fault : Fault)
deriving DecidableEq, Repr

/-- A piece of an evaluation. -/
abbrev Run := EStateM EvalStop Heap

/-- What is to be evaluated. -/
inductive Task where
  | expression (n : Node)
  | statement (n : Node)
  /-- The body of a function. -/
  | body (n : Node)
deriving Repr

/-! ## Operators -/

/-- The quotient of two integers, rounded toward zero: that of the absolute values, with a
sign if just one of them has one. -/
def truncatingDivide (a b : Int) : Option Int :=
  if b = 0 then none
  else
    let quotient : Int := (a.natAbs / b.natAbs : Nat)
    some (if (a < 0) ≠ (b < 0) then -quotient else quotient)

/-- An operator between two integers. -/
def integerOperation (operator : String) (a b : Int) : Except RuntimeCause Value :=
  match operator with
  | "+" => .ok (.integer (a + b))
  | "-" => .ok (.integer (a - b))
  | "*" => .ok (.integer (a * b))
  | "/" =>
    match truncatingDivide a b with
    | some q => .ok (.integer q)
    | none => .error .divisionByZero
  | "<" => .ok (.boolean (a < b))
  | ">" => .ok (.boolean (a > b))
  | "<=" => .ok (.boolean (a ≤ b))
  | ">=" => .ok (.boolean (a ≥ b))
  | "==" => .ok (.boolean (a = b))
  | "!=" => .ok (.boolean (a ≠ b))
  | _ => .error (.typeMismatch ("unknown operator INTEGER " ++ operator ++ " INTEGER"))

/-- The operands have no meaning for the operator between them. -/
def operandMismatch (left : Option Value) (operator : String) (right : Option Value) :
    RuntimeCause :=
  .typeMismatch (typeNameOf left ++ " " ++ operator ++ " " ++ typeNameOf right)

/-- An operator between two operands. Other than integers, values can only be
compared for being the same. -/
def binaryOperation (operator : String) (left right : Option Value) :
    Except RuntimeCause Value :=
  match left, right with
  | some (.integer a), some (.integer b) => integerOperation operator a b
  | some a, some b =>
    match operator with
    | "==" => .ok (.boolean (a.same b))
    | "!=" => .ok (.boolean (!a.same b))
    | _ => .error (operandMismatch left operator right)
  | _, _ => .error (operandMismatch left operator right)

/-- An operator in front of its operand. -/
def unaryOperation (operator : String) (operand : Option Value) : Except RuntimeCause Value :=
  match operator with
  | "!" => .ok (.boolean (!holds operand))
  | "-" =>
    match operand with
    | some (.integer n) => .ok (.integer (-n))
    | _ => .error (.typeMismatch ("-" ++ typeNameOf operand))
  | _ => .error (.typeMismatch ("unknown operator " ++ operator ++ typeNameOf operand))

namespace Run

/-- Ends the evaluation with a failure of the program. -/
def fail {α : Type} (cause : RuntimeCause) (span : Option Span) : Run α :=
  throw (.failed cause span)

/-- The result of an operator, or its failure at the place of the operation. -/
def ofOperation (span : Option Span) (result : Except RuntimeCause Value) :
    Run (Option Value) :=
  match result with
  | .ok v => return some v
  | .error cause => fail cause span

/-- The value that a name is bound to. -/
def get (frame : FrameId) (name : String) (span : Option Span) : Run (Option Value) := do
  match (← EStateM.get).get? frame name with
  | some v => return v
  | none => fail (.undefined name) span

/-- Declares a name, and gives the value. -/
def declare (frame : FrameId) (name : String) (value : Option Value) : Run (Option Value) := do
  modify (·.declare frame name value)
  return value

/-- Assigns to a name, and gives the value. -/
def assign (frame : FrameId) (name : String) (value : Option Value) : Run (Option Value) := do
  modify (·.assign frame name value)
  return value

/-- Rounds of a loop while its condition holds. The value is that of the last
round. -/
def loop (condition : Run (Option Value)) (round : Run (Option Value)) (last : Option Value) :
    Nat → Run (Option Value)
  | 0 => throw (.fault .endless)
  | n + 1 => do
    if holds (← condition) then loop condition round (← round) n else return last

section

variable (self : Task → FrameId → Run (Option Value)) (frame : FrameId)

/-- Statements in order. The value is that of the last one. -/
def statements (last : Option Value) : List Node → Run (Option Value)
  | [] => return last
  | n :: rest => do
    statements (← self (.statement n) frame) rest

/-- The statements of a block. -/
def block (n : Node) : Run (Option Value) :=
  match n.statements? with
  | some list => statements self frame none list
  | none => throw (.fault (.noStatements n.kindName))

/-- Expressions from left to right. -/
def arguments (found : Array (Option Value)) : List Node → Run (Array (Option Value))
  | [] => return found
  | n :: rest => do
    arguments (found.push (← self (.expression n) frame)) rest

/-- The call of a function. Its body runs in a new frame inside the one that the
function was made with, which binds the parameters to the arguments. -/
def apply (span : Option Span) (callee : Node) (function : Option Value)
    (arguments : List (Option Value)) : Run (Option Value) :=
  match function with
  | some (.function c) => do
    if c.parameters.length ≠ arguments.length then
      fail (.arityMismatch c.parameters.length arguments.length) span
    else
      let inner ← modifyGet fun h =>
        let (inner, h) := h.enclose c.frame ("call:" ++ callee.print)
        (inner, h.declareAll inner (c.parameters.zip arguments))
      self (.body c.body) inner
  | other => fail (.notCallable (typeNameOf other)) span

/-- The value of an expression. -/
def expression : Node → Run (Option Value)
  | .integer _ value => return some (.integer value)
  | .identifier span name => get frame name span
  | .unary span operator operand => do
    ofOperation span (unaryOperation operator (← self (.expression operand) frame))
  | .binary span left operator right => do
    let a ← self (.expression left) frame
    let b ← self (.expression right) frame
    ofOperation span (binaryOperation operator a b)
  | .conditional _ condition consequence alternative => do
    if holds (← self (.expression condition) frame) then block self frame consequence
    else if alternative.isMissing then return none
    else block self frame alternative
  | .function _ parameters body => do
    let captured ← modifyGet (·.capture frame)
    return some (.function ⟨parameters.map Name.text, body, captured⟩)
  | .call span callee args => do
    let function ← self (.expression callee) frame
    let values ← arguments self frame #[] args
    apply self span callee function values.toList
  | other => throw (.fault (.unknownExpression other.kindName))

/-- The effect and the value of a statement. -/
def statement (rounds : Nat) : Node → Run (Option Value)
  | .expression _ e => self (.expression e) frame
  | .declaration _ name value => do
    declare frame name.text (← self (.expression value) frame)
  | .assignment _ name value => do
    assign frame name.text (← self (.expression value) frame)
  | .block _ list => statements self frame none list
  | .whileLoop _ condition body =>
    loop (self (.expression condition) frame) (block self frame body) none rounds
  | .forLoop _ init condition post body => do
    let _ ← self (.statement init) frame
    let round : Run (Option Value) := do
      let value ← block self frame body
      let _ ← self (.statement post) frame
      return value
    loop (self (.expression condition) frame) round none rounds
  | other => throw (.fault (.unknownStatement other.kindName))

end

end Run

/-- Evaluation that nests at most as deeply as the given number of levels allows.
An expression and a statement take two levels each, for itself and for its form; a
function body takes one. -/
def evalTask (rounds : Nat) : Nat → Task → FrameId → Run (Option Value)
  | depth + 1, .body n, frame => Run.block (evalTask rounds depth) frame n
  | depth + 2, .statement n, frame => Run.statement (evalTask rounds depth) frame rounds n
  | depth + 2, .expression n, frame => Run.expression (evalTask rounds depth) frame n
  | _, _, _ => throw .tooDeep

/-- Evaluates any tree. -/
def evalNode (rounds depth : Nat) (n : Node) (frame : FrameId) : Run (Option Value) :=
  match n with
  | .missing => throw (.fault (.unknownNode n.kindName))
  | .program _ list => Run.statements (evalTask rounds depth) frame none list
  | .declaration .. | .assignment .. | .expression .. | .block .. | .whileLoop .. | .forLoop .. =>
    evalTask rounds depth (.statement n) frame
  | _ => evalTask rounds depth (.expression n) frame

end Ember

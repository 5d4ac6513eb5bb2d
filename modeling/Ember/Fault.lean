/-!
# Faults

What ends a call without an answer about the program: a bound of the machine
that the program ran into, or a tree that no text gives. A fault is not a
diagnostic, since nothing in the program text is to blame.
-/

namespace Ember

/-- The longest integer, in decimal digits, that is read from or written as text. -/
def maxDigits : Nat := 4300

/-- The greatest nesting limit that can be put in force. -/
def maxDepthLimit : Int := 2147483647

/-- Why a call ended without an answer. -/
inductive Fault where
  /-- An integer literal with this many digits, more than `maxDigits`. -/
  | literalTooLong (digits : Nat)
  /-- An integer to be shown that has more than `maxDigits` digits. -/
  | valueTooLong
  /-- A nesting limit above `maxDepthLimit`. -/
  | depthLimitTooLarge
  /-- Something to be shown in this form that is nested too deeply. -/
  | nestedTooDeep (form : String)
  /-- A tree that is neither a program, nor a statement, nor an expression. -/
  | unknownNode (kind : String)
  | unknownStatement (kind : String)
  | unknownExpression (kind : String)
  /-- A node in the place of a block that has no statements. -/
  | noStatements (kind : String)
  /-- The bound on the rounds of a loop was reached. -/
  | endless
deriving DecidableEq, Repr

/-- The text of a fault. -/
def Fault.message : Fault → String
  | literalTooLong digits =>
    "Exceeds the limit (" ++ toString maxDigits ++
      " digits) for integer string conversion: value has " ++ toString digits ++
      " digits; use sys.set_int_max_str_digits() to increase the limit"
  | valueTooLong =>
    "Exceeds the limit (" ++ toString maxDigits ++
      " digits) for integer string conversion; use sys.set_int_max_str_digits()" ++
      " to increase the limit"
  | depthLimitTooLarge => "Python int too large to convert to C int"
  | nestedTooDeep form =>
    "maximum recursion depth exceeded while getting the " ++ form ++ " of an object"
  | unknownNode kind => "Unknown node type: " ++ kind
  | unknownStatement kind => "Unknown statement type: " ++ kind
  | unknownExpression kind => "Unknown expression type: " ++ kind
  | noStatements kind => "'" ++ kind ++ "' object has no attribute 'statements'"
  | endless => "loop bound reached"

end Ember

import Ember.Fault
import Ember.Node.Print
import Ember.Text.Digit
import Ember.Text.Quoted

/-!
# Values

The values of a program are integers without bound, truth values and functions.
An expression may also have no value at all, which is `none` in `Option Value`.
-/

namespace Ember

/-- The number of a frame in the heap. -/
abbrev FrameId := Nat

/-- A function: the names of its parameters, its body, and the frame that it was
made with. Every evaluation of a function expression makes a frame of its own, so
the frame tells functions apart. -/
structure Closure where
  parameters : List String
  body : Node
  frame : FrameId
deriving Repr, Inhabited

/-- A value. -/
inductive Value where
  | integer (value : Int)
  | boolean (value : Bool)
  | function (closure : Closure)
deriving Repr, Inhabited

/-- An integer as text, unless it has too many digits. -/
def integerText (n : Int) : Except Fault String :=
  if n.natAbs < Nat.pow 10 maxDigits then .ok (toString n) else .error .valueTooLong

/-- The integer that a text of digits with an optional sign stands for, unless it
has too many digits. -/
def integerOfText (text : String) : Except Fault Int :=
  let (sign, digits) : Int × List Char := match text.toList with
    | '-' :: digits => (-1, digits)
    | digits => (1, digits)
  if maxDigits < digits.length then .error (.literalTooLong digits.length)
  else .ok (sign * Text.digitsValue digits)

namespace Closure

/-- The function as source text. -/
def print (c : Closure) : String :=
  "function(" ++ ", ".intercalate c.parameters ++ ") " ++ c.body.printOr absent

end Closure

namespace Value

/-- The name of a value's type. -/
def typeName : Value → String
  | integer _ => "INTEGER"
  | boolean _ => "BOOLEAN"
  | function _ => "FUNCTION"

/-- Whether a condition with this value holds: everything does but false and
zero. -/
def isTruthy : Value → Bool
  | integer n => n ≠ 0
  | boolean b => b
  | function _ => true

/-- The value as it is shown to a reader, whatever stack that takes. -/
def display : Value → Except Fault String
  | integer n => integerText n
  | boolean b => .ok (if b then "true" else "false")
  | function c => .ok c.print

/-- The value as it is shown to a reader, if the stack is enough for it. -/
def displayOn (stack : Stack) : Value → Except Fault String
  | function c => if stack.prints c.body then .ok c.print else .error (.nestedTooDeep "str")
  | value => value.display

/-- The value with its type and parts. -/
def describe : Value → Except Fault String
  | integer n => return "Integer(value=" ++ (← integerText n) ++ ")"
  | boolean b => .ok ("Boolean(" ++ (if b then "True" else "False") ++ ")")
  | function c => .ok ("Function([" ++ ", ".intercalate (c.parameters.map Text.quoted) ++ "])")

/-- Whether two values are the same: integers and truth values by what they are,
functions by their body and their origin, and values of different types never. -/
def same : Value → Value → Bool
  | integer a, integer b => a = b
  | boolean a, boolean b => a = b
  | function f, function g => f.body.sameAs g.body && f.frame = g.frame
  | _, _ => false

end Value

/-! ## Values that may be absent -/

/-- The name of the type of a value, if there is one. -/
def typeNameOf : Option Value → String
  | some v => v.typeName
  | none => "NO_VALUE"

/-- Whether a condition holds; without a value it does not. -/
def holds : Option Value → Bool
  | some v => v.isTruthy
  | none => false

/-- What is shown of a value; without a value, nothing. -/
def displayOf : Option Value → Except Fault String
  | some v => v.display
  | none => .ok ""

/-- The value with its type and parts. -/
def describeOf : Option Value → Except Fault String
  | some v => v.describe
  | none => .ok "None"

end Ember

import Ember.Diagnostic

/-!
# What goes wrong

The causes of diagnostics: what a parse finds wrong with a text, and what stops
an evaluation. Every cause has one code and one message, written here and
nowhere else.
-/

namespace Ember

/-- What is wrong with a program text. Kinds of tokens are given by name. -/
inductive SyntaxCause where
  | unexpectedToken (expected found : String)
  | unexpectedEnd (expected : String)
  /-- A token that no expression starts with. -/
  | noExpression (found : String)
  | illegalCharacter (text : String)
  /-- A loop clause that is neither a declaration nor an assignment. -/
  | invalidClause (found clause : String)
  | tooDeep
deriving DecidableEq, Repr

namespace SyntaxCause

/-- The code of a cause. -/
def code : SyntaxCause → String
  | unexpectedToken .. => "E101"
  | unexpectedEnd .. => "E102"
  | noExpression .. => "E103"
  | illegalCharacter .. => "E104"
  | invalidClause .. => "E105"
  | tooDeep => "E106"

/-- The message of a cause. -/
def message : SyntaxCause → String
  | unexpectedToken expected found =>
    "expected next token to be " ++ expected ++ ", got " ++ found ++ " instead"
  | unexpectedEnd expected => "expected next token to be " ++ expected ++ ", got EOF instead"
  | noExpression found => "no prefix parse function for " ++ found ++ " found"
  | illegalCharacter text => "illegal character '" ++ text ++ "'"
  | invalidClause found clause =>
    "expected " ++ clause ++ " statement in 'for', got " ++ found
  | tooDeep => "expression nested too deeply"

/-- What a reader may try. -/
def hints : SyntaxCause → List String
  | invalidClause .. => ["for loop init and post must be 'let' or an assignment"]
  | tooDeep => ["raise 'recursion_limit' in the configuration for deeper nesting"]
  | _ => []

/-- The diagnostic of a cause at a place. -/
def diagnostic (c : SyntaxCause) (span : Option Span) (sourceLine : Option String := none) :
    Diagnostic :=
  { code := c.code, message := c.message, span, sourceLine, hints := c.hints }

end SyntaxCause

/-- What stops an evaluation. Types of values are given by name. -/
inductive RuntimeCause where
  | undefined (name : String)
  /-- An operator on operands that it has no meaning for. -/
  | typeMismatch (operation : String)
  | divisionByZero
  | notCallable (type : String)
  | arityMismatch (expected found : Int)
  | tooDeep
deriving DecidableEq, Repr

namespace RuntimeCause

/-- The code of a cause. -/
def code : RuntimeCause → String
  | undefined _ => "E401"
  | typeMismatch _ => "E402"
  | divisionByZero => "E403"
  | notCallable _ => "E404"
  | arityMismatch .. => "E405"
  | tooDeep => "E406"

/-- The message of a cause. -/
def message : RuntimeCause → String
  | undefined name => "identifier not found: " ++ name
  | typeMismatch operation => "type mismatch: " ++ operation
  | divisionByZero => "division by zero"
  | notCallable type => "not a function: " ++ type
  | arityMismatch expected found =>
    "wrong number of arguments: expected " ++ toString expected ++ ", got " ++ toString found
  | tooDeep => "maximum recursion depth exceeded"

/-- What a reader may try. -/
def hints : RuntimeCause → List String
  | tooDeep => ["raise 'recursion_limit' in the configuration for deeper recursion"]
  | _ => []

/-- The diagnostic of a cause at a place. -/
def diagnostic (c : RuntimeCause) (span : Option Span) (sourceLine : Option String := none) :
    Diagnostic :=
  { code := c.code, message := c.message, span, sourceLine, hints := c.hints }

end RuntimeCause

end Ember

import Ember.Parse.Window
import Ember.Fault
import Ember.Text.Digit

/-!
# The rules of the grammar

One rule a kind of phrase. A rule starts at the first token of its phrase and
ends at the last one; where it finds no phrase it notes why and gives
`Node.missing`. Rules are written over `self`, the rules for the phrases inside;
`parseRule` ties the knot, one level of nesting at a time.

Operators are parsed by their strength: an operator takes what stands to its left
as its left operand while it binds more strongly than what surrounds it.
-/

namespace Ember

/-- How strongly an operator binds; every other token binds least. -/
def Kind.strength : Kind → Nat
  | .equal | .notEqual | .less | .greater | .lessEqual | .greaterEqual => 2
  | .plus | .minus => 3
  | .star | .slash => 4
  | .leftParen => 5
  | _ => 1

/-- The strength below that of all operators. -/
def lowest : Nat := 1

/-- The strength with which a sign takes its operand. -/
def signStrength : Nat := 4

/-- The phrases that contain other phrases. -/
inductive Phrase where
  | statement
  | block
  /-- An expression of operators that bind more strongly than `above`. -/
  | expression (above : Nat)
  /-- A conditional, at its first word. -/
  | conditional
  /-- The call of an expression, at the parenthesis behind it. -/
  | call (callee : Node)
deriving Repr

namespace Parser

/-! ## Literals and names -/

/-- An integer literal, which must not be too long. -/
def integerLiteral (token : Token) : Parser Node :=
  if maxDigits < token.text.length then throw (.literalTooLong token.text.length)
  else return .integer (some token.span) (Text.digitsValue token.text.toList)

/-- The name that a token is. -/
def nameOf (token : Token) : Name :=
  { text := token.text, span := some token.span }

/-- The names behind commas, up to the closing parenthesis. -/
def moreParameters (found : Array Name) : Nat → Parser (Option (Array Name))
  | 0 => return none
  | n + 1 => do
    if ← nextIs .comma then
      advance
      if ← expect .identifier then
        moreParameters (found.push (nameOf (← current))) n
      else return none
    else if ← expect .rightParen then return some found
    else return none

/-- The parameters of a function, from the opening parenthesis to the closing
one. -/
def parameters : Parser (Option (Array Name)) := do
  if ← nextIs .rightParen then
    advance
    return some #[]
  else if ← expect .identifier then
    moreParameters #[nameOf (← current)] ((← remaining) + 1)
  else return none

/-! ## Phrases inside phrases -/

section

variable (self : Phrase → Parser Node)

/-- Statements up to a closing brace. When the text ends first, the line of the
opening brace is quoted. -/
def blockStatements (opening : Token) (found : Array Node) : Nat → Parser (Array Node)
  | 0 => return found
  | n + 1 => do
    let token ← current
    if token.kind = .rightBrace then return found
    else if token.kind = .endOfText then
      modify (·.note (.unexpectedEnd Kind.rightBrace.name) token opening)
      return found
    else
      let statement ← self .statement
      advance
      blockStatements opening (if statement.isMissing then found else found.push statement) n

/-- A block, at its opening brace. -/
def block : Parser Node := do
  let opening ← current
  advance
  let statements ← blockStatements self opening #[] ((← remaining) + 1)
  return .block (some (← spanFrom opening)) statements.toList

/-- A conditional. What follows `else` is a block, or another conditional, which
then is the only statement of a block of its own. -/
def conditional : Parser Node := do
  let first ← current
  past .leftParen do
    advance
    let condition ← self (.expression lowest)
    past .rightParen <| past .leftBrace do
      let consequence ← self .block
      let finish (alternative : Node) : Parser Node := do
        return .conditional (some (← spanFrom first)) condition consequence alternative
      if ← nextIs .elseWord then
        advance
        if ← nextIs .ifWord then
          advance
          let nested ← self .conditional
          if nested.isMissing then return .missing
          else finish (.block nested.span? [.expression nested.span? nested])
        else past .leftBrace do
          finish (← self .block)
      else finish .missing

/-- A function, at its first word. -/
def function : Parser Node := do
  let first ← current
  past .leftParen do
    match ← parameters with
    | none => return .missing
    | some names => past .leftBrace do
      let body ← self .block
      return .function (some (← spanFrom first)) names.toList body

/-- A sign and its operand. -/
def signed : Parser Node := do
  let sign ← current
  advance
  let operand ← self (.expression signStrength)
  if operand.isMissing then return .missing
  else return .unary (some (← spanFrom sign)) sign.text operand

/-- An expression in parentheses, which leave no trace in the tree. -/
def grouped : Parser Node := do
  advance
  let inner ← self (.expression lowest)
  past .rightParen (return inner)

/-- The arguments behind commas. -/
def moreArguments (found : Array Node) : Nat → Parser (Array Node)
  | 0 => return found
  | n + 1 => do
    if ← nextIs .comma then
      advance
      advance
      moreArguments (found.push (← self (.expression lowest))) n
    else return found

/-- The arguments of a call, up to the closing parenthesis. An argument that is no
expression leaves a gap in the list. -/
def arguments : Parser (Option (Array Node)) := do
  if ← nextIs .rightParen then
    advance
    return some #[]
  else
    advance
    let first ← self (.expression lowest)
    let all ← moreArguments self #[first] (← remaining)
    if ← expect .rightParen then return some all else return none

/-- The span from the start of a tree to the current token. -/
def spanOver (n : Node) : Parser Span := do
  let last ← current
  return ⟨(n.span?.getD last.span).start, last.span.stop⟩

/-- The call of an expression. -/
def call (callee : Node) : Parser Node := do
  match ← arguments self with
  | none => return .missing
  | some all => return .call (some (← spanOver callee)) callee all.toList

/-- An operator between two operands, the left of which is known. -/
def infixed (left : Node) : Parser Node := do
  let operator ← current
  advance
  let right ← self (.expression operator.kind.strength)
  if right.isMissing then return .missing
  else return .binary (some (← spanOver left)) left operator.text right

/-- What an expression starts with. -/
def operand : Parser Node := do
  let token ← current
  match token.kind with
  | .identifier => return .identifier (some token.span) token.text
  | .integer => integerLiteral token
  | .bang | .minus => signed self
  | .leftParen => grouped self
  | .ifWord => conditional self
  | .functionWord => function self
  | .illegal => note (.illegalCharacter token.text) token; return .missing
  | kind => note (.noExpression kind.name) token; return .missing

/-- The operators and calls behind an operand that bind more strongly than
`above`. -/
def operators (above : Nat) (left : Node) : Nat → Parser Node
  | 0 => return left
  | n + 1 => do
    let token ← next
    if left.isMissing ∨ token.kind.strength ≤ above then return left
    else
      advance
      let left ← if token.kind = .leftParen then self (.call left) else infixed self left
      operators above left n

/-- An expression of operators that bind more strongly than `above`. -/
def expression (above : Nat) : Parser Node := do
  let left ← operand self
  operators self above left (← remaining)

/-! ## Statements -/

/-- Moves over a semicolon that ends a statement. -/
def terminator : Parser Unit := do
  if ← nextIs .semicolon then advance

/-- A declaration, at its first word; `finish` ends it. -/
def declaration (finish : Parser Unit) : Parser Node := do
  let first ← current
  past .identifier do
    let name := nameOf (← current)
    past .assign do
      advance
      let value ← self (.expression lowest)
      finish
      return .declaration (some (← spanFrom first)) name value

/-- An assignment, at its name; `finish` ends it. -/
def assignment (finish : Parser Unit) : Parser Node := do
  let first ← current
  past .assign do
    advance
    let value ← self (.expression lowest)
    finish
    return .assignment (some (← spanFrom first)) (nameOf first) value

/-- An expression as a statement. -/
def expressionStatement : Parser Node := do
  let first ← current
  let value ← self (.expression lowest)
  if value.isMissing then return .missing
  else
    terminator
    return .expression (some (← spanFrom first)) value

/-- A loop with a condition. -/
def whileLoop : Parser Node := do
  let first ← current
  past .leftParen do
    advance
    let condition ← self (.expression lowest)
    past .rightParen <| past .leftBrace do
      let body ← self .block
      return .whileLoop (some (← spanFrom first)) condition body

/-- The first or the last clause of a counting loop, which declares or assigns. -/
def clause (name : String) : Parser Node := do
  let token ← current
  if token.kind = .letWord then declaration self (return ())
  else if token.kind = .identifier ∧ (← next).kind = .assign then assignment self (return ())
  else
    note (.invalidClause token.kind.name name) token
    return .missing

/-- A loop with three clauses. -/
def forLoop : Parser Node := do
  let first ← current
  past .leftParen do
    advance
    let init ← clause self "init"
    if init.isMissing then return .missing
    else past .semicolon do
      advance
      let condition ← self (.expression lowest)
      past .semicolon do
        advance
        let post ← clause self "post"
        if post.isMissing then return .missing
        else past .rightParen <| past .leftBrace do
          let body ← self .block
          return .forLoop (some (← spanFrom first)) init condition post body

/-- A statement, by its first token. -/
def statement : Parser Node := do
  let token ← current
  match token.kind with
  | .letWord => declaration self terminator
  | .whileWord => whileLoop self
  | .forWord => forLoop self
  | .identifier =>
    if ← nextIs .assign then assignment self terminator else expressionStatement self
  | _ => expressionStatement self

end

end Parser

/-- The rules for phrases that nest at most as deeply as the given number of
levels allows. A statement and an expression take two levels each, for itself and
for its form; every other phrase takes one. -/
def parsePhrase : Nat → Phrase → Parser Node
  | depth + 1, .block => Parser.block (parsePhrase depth)
  | depth + 1, .conditional => Parser.conditional (parsePhrase depth)
  | depth + 1, .call callee => Parser.call (parsePhrase depth) callee
  | depth + 2, .statement => Parser.statement (parsePhrase depth)
  | depth + 2, .expression above => Parser.expression (parsePhrase depth) above
  | _, _ => throw .tooDeep

end Ember

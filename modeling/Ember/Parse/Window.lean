import Ember.Diagnostic.Cause
import Ember.Node
import Ember.Token

/-!
# Moving over tokens

A parse sees two tokens at a time, the current one and the next one, and moves
forward only. Problems are noted and the parse goes on; it is given up only when
the nesting is too deep or an integer literal too long.
-/

namespace Ember

/-- Something wrong with a text: the cause, the place, and the number of the
line to be quoted. -/
structure Problem where
  cause : SyntaxCause
  span : Span
  quotedLine : Nat
deriving DecidableEq, Repr

/-- The diagnostic of a problem of a source. -/
def Problem.diagnostic (p : Problem) (s : Source) : Diagnostic :=
  p.cause.diagnostic (some p.span) (s.line? p.quotedLine)

/-- Where a parse is: the current token, those ahead, and the problems so far.
The last token is the end of the text; nothing follows it but itself. -/
structure Window where
  current : Token
  ahead : List Token
  problems : Array Problem := #[]
deriving Repr

namespace Window

/-- The window at the first of some tokens. -/
def ofTokens : List Token → Window
  | [] =>
    let place := Location.start none
    { current := { kind := .endOfText, text := "", span := ⟨place, place⟩ }, ahead := [] }
  | token :: ahead => { current := token, ahead }

/-- The token after the current one. -/
def next (w : Window) : Token :=
  w.ahead.headD w.current

/-- The window one token further on. -/
def advance (w : Window) : Window :=
  match w.ahead with
  | [] => w
  | token :: ahead => { w with current := token, ahead }

/-- The window with one more problem, found at `token`; the line where `quoted`
starts is the one to quote. -/
def note (w : Window) (cause : SyntaxCause) (token quoted : Token) : Window :=
  { w with problems := w.problems.push ⟨cause, token.span, quoted.span.start.line⟩ }

end Window

/-- Why a parse is given up. -/
inductive ParseStop where
  /-- The nesting is deeper than the limit allows. -/
  | tooDeep
  /-- An integer literal has this many digits, too many to be read. -/
  | literalTooLong (digits : Nat)
deriving DecidableEq, Repr

/-- A step of a parse. When the parse is given up the window tells how far it
came. -/
abbrev Parser := EStateM ParseStop Window

namespace Parser

/-- The current token. -/
def current : Parser Token :=
  return (← get).current

/-- The token after the current one. -/
def next : Parser Token :=
  return (← get).next

/-- Moves on by one token. -/
def advance : Parser Unit :=
  modify Window.advance

/-- Whether the next token is of the given kind. -/
def nextIs (kind : Kind) : Parser Bool :=
  return (← next).kind = kind

/-- Notes a problem at a token. -/
def note (cause : SyntaxCause) (token : Token) : Parser Unit :=
  modify (·.note cause token token)

/-- Moves to the next token if it is of the given kind, otherwise notes the
problem. -/
def expect (kind : Kind) : Parser Bool := do
  let token ← next
  if token.kind = kind then
    advance
    return true
  else
    if token.kind = .endOfText then
      note (.unexpectedEnd kind.name) token
    else
      note (.unexpectedToken kind.name token.kind.name) token
    return false

/-- Goes on with `more` past a next token of the given kind; without such a token
there is no tree. -/
def past (kind : Kind) (more : Parser Node) : Parser Node := do
  if ← expect kind then more else return .missing

/-- The stretch of text from a token to the current one. -/
def spanFrom (first : Token) : Parser Span :=
  return ⟨first.span.start, (← current).span.stop⟩

/-- The number of tokens ahead, which bounds what a loop over tokens can do. -/
def remaining : Parser Nat :=
  return (← get).ahead.length

end Parser

end Ember

import Ember.Source
import Ember.Text.Quoted

/-!
# Tokens

The pieces that a source text is divided into: their kinds, the words that are
keywords, and the text form of a token.
-/

namespace Ember

/-- The kind of a token. -/
inductive Kind where
  /-- A character that belongs to no other kind. -/
  | illegal
  /-- The end of the text. -/
  | endOfText
  | identifier
  | integer
  | assign
  | plus
  | minus
  | bang
  | star
  | slash
  | less
  | greater
  | lessEqual
  | greaterEqual
  | equal
  | notEqual
  | comma
  | semicolon
  | leftParen
  | rightParen
  | leftBrace
  | rightBrace
  | letWord
  | functionWord
  | ifWord
  | elseWord
  | forWord
  | whileWord
deriving DecidableEq, Repr, Inhabited

/-- The name of a kind in messages and listings. -/
def Kind.name : Kind → String
  | illegal => "ILLEGAL"
  | endOfText => "EOF"
  | identifier => "IDENTIFIER"
  | integer => "INT_LITERAL"
  | assign => "ASSIGN"
  | plus => "PLUS"
  | minus => "MINUS"
  | bang => "BANG"
  | star => "STAR"
  | slash => "SLASH"
  | less => "LT"
  | greater => "GT"
  | lessEqual => "LE"
  | greaterEqual => "GE"
  | equal => "EQ"
  | notEqual => "NE"
  | comma => "COMMA"
  | semicolon => "SEMICOLON"
  | leftParen => "LPAREN"
  | rightParen => "RPAREN"
  | leftBrace => "LBRACE"
  | rightBrace => "RBRACE"
  | letWord => "LET"
  | functionWord => "FUNCTION"
  | ifWord => "IF"
  | elseWord => "ELSE"
  | forWord => "FOR"
  | whileWord => "WHILE"

/-- The kind of a word: a keyword by exact match, otherwise an identifier. -/
def Kind.ofWord (word : String) : Kind :=
  match word with
  | "let" => letWord
  | "function" => functionWord
  | "if" => ifWord
  | "else" => elseWord
  | "for" => forWord
  | "while" => whileWord
  | _ => identifier

/-- A token: its kind, its exact source text (empty at the end of the text) and
where it stands. -/
structure Token where
  kind : Kind
  text : String
  span : Span
deriving DecidableEq, Repr, Inhabited

/-- The token as it is listed. -/
def Token.render (t : Token) : String :=
  "Token(" ++ t.kind.name ++ ", " ++ Text.quoted t.text ++ ")"

end Ember

import Ember.Token
import Ember.Text.Blank
import Ember.Text.Digit
import Ember.Text.Letter

/-!
# From text to tokens

Scanning skips blanks and takes the longest lexeme in front of the text: a run
of digits, a run of letters and digits that starts with a letter, an operator
of one or two characters, or a single character of no kind. It never fails.

`Cursor.next` takes one token and `Source.tokens` all of them; the last one, and
only the last, is the end of the text.
-/

namespace Ember

open Text

/-- A character that continues a name. -/
def isWordChar (c : Char) : Bool :=
  isLetter c || isDigit c

/-- The kinds of the operators that an equals sign may extend: alone, and with
the sign. -/
def extensibleKinds : Char → Option (Kind × Kind)
  | '=' => some (.assign, .equal)
  | '!' => some (.bang, .notEqual)
  | '<' => some (.less, .lessEqual)
  | '>' => some (.greater, .greaterEqual)
  | _ => none

/-- The kind of a lexeme of one character that nothing extends. -/
def singleKind : Char → Kind
  | '+' => .plus
  | '-' => .minus
  | '*' => .star
  | '/' => .slash
  | ',' => .comma
  | ';' => .semicolon
  | '(' => .leftParen
  | ')' => .rightParen
  | '{' => .leftBrace
  | '}' => .rightBrace
  | _ => .illegal

/-- A lexeme at the front of a text, and the text behind it. -/
structure Lexeme where
  kind : Kind
  text : List Char
  rest : List Char
deriving DecidableEq, Repr

/-- The lexeme that starts with the character `c` and goes on in `cs`. -/
def lexeme (c : Char) (cs : List Char) : Lexeme :=
  if isDigit c then
    { kind := .integer, text := c :: cs.takeWhile isDigit, rest := cs.dropWhile isDigit }
  else if isLetter c then
    let word := c :: cs.takeWhile isWordChar
    { kind := Kind.ofWord (String.ofList word), text := word, rest := cs.dropWhile isWordChar }
  else
    match extensibleKinds c, cs with
    | some (_, extended), '=' :: rest => { kind := extended, text := [c, '='], rest }
    | some (alone, _), rest => { kind := alone, text := [c], rest }
    | none, rest => { kind := singleKind c, text := [c], rest }

theorem length_dropWhile_le {α : Type} (p : α → Bool) (l : List α) :
    (l.dropWhile p).length ≤ l.length :=
  (List.dropWhile_suffix p).length_le

/-- What follows a lexeme is shorter than what it was taken from. -/
theorem lexeme_rest_length (c : Char) (cs : List Char) :
    (lexeme c cs).rest.length ≤ cs.length := by
  unfold lexeme
  split
  · exact length_dropWhile_le _ _
  · split
    · exact length_dropWhile_le _ _
    · split <;> simp

/-- A place in a text: where it is, and the text from there on. -/
structure Cursor where
  place : Location
  rest : List Char
deriving DecidableEq, Repr

namespace Cursor

/-- The start of a source. -/
def ofSource (s : Source) : Cursor :=
  { place := .start s.file, rest := s.text.toList }

/-- The cursor past the blanks in front of it. -/
def skipBlanks (c : Cursor) : Cursor :=
  { place := c.place.pastAll (c.rest.takeWhile isBlank), rest := c.rest.dropWhile isBlank }

/-- The next token and the cursor behind it. At the end of the text the token is
the end of the text, again and again. -/
def next (c : Cursor) : Token × Cursor :=
  let c := c.skipBlanks
  match c.rest with
  | [] => ({ kind := .endOfText, text := "", span := ⟨c.place, c.place⟩ }, c)
  | x :: xs =>
    let l := lexeme x xs
    let stop := c.place.pastAll l.text
    ({ kind := l.kind, text := String.ofList l.text, span := ⟨c.place, stop⟩ },
      { place := stop, rest := l.rest })

/-- Behind a token that is not the end there is less text than before it. -/
theorem next_rest_length {c : Cursor} (h : c.skipBlanks.rest ≠ []) :
    c.next.2.rest.length < c.rest.length := by
  have hle : c.skipBlanks.rest.length ≤ c.rest.length := length_dropWhile_le _ _
  unfold next
  cases hr : c.skipBlanks.rest with
  | nil => exact absurd hr h
  | cons x xs =>
    rw [hr] at hle
    simp only [hr]
    exact Nat.lt_of_le_of_lt (lexeme_rest_length x xs) hle

/-- The tokens from the cursor to the end of the text, after those in `found`. -/
def collect (found : Array Token) (c : Cursor) : Array Token :=
  let step := c.next
  if c.skipBlanks.rest = [] then found.push step.1
  else collect (found.push step.1) step.2
termination_by c.rest.length
decreasing_by exact next_rest_length ‹_›

/-- The tokens from the cursor to the end of the text, the end included. -/
def tokens (c : Cursor) : List Token :=
  (c.collect #[]).toList

/-- The cursor behind the last token. -/
def toEnd (c : Cursor) : Cursor :=
  { place := c.place.pastAll c.rest, rest := [] }

end Cursor

/-- The tokens of a source, the end included. -/
def Source.tokens (s : Source) : List Token :=
  (Cursor.ofSource s).tokens

end Ember

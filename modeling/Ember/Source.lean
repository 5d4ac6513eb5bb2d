import Ember.Text.Line

/-!
# Source texts and places in them

A `Source` is a program text with the name of the file it was read from, if
any. A `Location` is a place in it and a `Span` a stretch of it. Lines and
columns count from one, offsets from zero, all in characters.
-/

namespace Ember

/-- A place in a source text. -/
structure Location where
  line : Nat
  column : Nat
  offset : Nat
  file : Option String := none
deriving DecidableEq, Repr, Inhabited

namespace Location

/-- The first place of a text. -/
def start (file : Option String) : Location :=
  { line := 1, column := 1, offset := 0, file }

/-- The place after one more character. Only a line feed starts a new line. -/
def past (l : Location) (c : Char) : Location :=
  if c = '\n' then { l with line := l.line + 1, column := 1, offset := l.offset + 1 }
  else { l with column := l.column + 1, offset := l.offset + 1 }

/-- The place after all of the given characters. -/
def pastAll (l : Location) (cs : List Char) : Location :=
  cs.foldl past l

/-- The file name in front of a place; an empty name counts as none. -/
def fileLabel (l : Location) : String :=
  match l.file with
  | none => ""
  | some name => if name.isEmpty then "" else name ++ ":"

/-- The line and column of a place. -/
def lineColumn (l : Location) : String :=
  toString l.line ++ ":" ++ toString l.column

/-- The place as it is written in front of a message. -/
def render (l : Location) : String :=
  l.fileLabel ++ l.lineColumn

end Location

/-- A stretch of source text, from `start` up to `stop`. -/
structure Span where
  start : Location
  stop : Location
deriving DecidableEq, Repr, Inhabited

/-- The span as text; the file is named once, in front. -/
def Span.render (s : Span) : String :=
  s.start.fileLabel ++ s.start.lineColumn ++ "-" ++ s.stop.lineColumn

/-- A program text and the name of the file that it comes from. -/
structure Source where
  text : String
  file : Option String := none
deriving DecidableEq, Repr, Inhabited

/-- A line of a source by its number, counted from one. -/
def Source.line? (s : Source) (number : Int) : Option String :=
  if 1 ≤ number then (Text.lines s.text)[number.toNat - 1]? else none

end Ember

import Ember.Json
import Ember.Source

/-!
# Diagnostics

What is said about a program that went wrong: a code, a message, the place, the
line of source that is quoted under it, and hints. `Diagnostic.render` shows one
to a reader and `Diagnostic.toJson` hands it to a tool. A `Report` is a sequence
of them with a limit.
-/

namespace Ember

/-- One thing said about a program. -/
structure Diagnostic where
  code : String
  message : String
  span : Option Span := none
  /-- The line of source that is quoted. -/
  sourceLine : Option String := none
  hints : List String := []
deriving DecidableEq, Repr, Inhabited

/-- `n` copies of a character. -/
def repeatChar (c : Char) (n : Nat) : String :=
  String.ofList (List.replicate n c)

/-- A number in at least three columns. -/
def padLineNumber (n : Nat) : String :=
  let digits := toString n
  repeatChar ' ' (3 - digits.length) ++ digits

/-- The column behind the part of the quoted line that is marked: to the end of
the span, or to the end of the line when the span goes on below. -/
def Span.markEnd (s : Span) (line : String) : Nat :=
  if s.start.line = s.stop.line then s.stop.column else line.length + 1

/-- The quoted line with its number, and the marks under it. -/
def Span.quote (s : Span) (line : String) : List String :=
  ["  |",
    padLineNumber s.start.line ++ " | " ++ line,
    "    | " ++ repeatChar ' ' (s.start.column - 1) ++
      repeatChar '^' (max 1 (s.markEnd line - s.start.column))]

namespace Diagnostic

/-- The first line: the place, if there is one, the code and the message. -/
def header (d : Diagnostic) : String :=
  let text := "error[" ++ d.code ++ "]: " ++ d.message
  match d.span with
  | some s => s.start.render ++ ": " ++ text
  | none => text

/-- The lines that quote the source, if both the place and the line are known. -/
def quotation (d : Diagnostic) : List String :=
  match d.span, d.sourceLine with
  | some s, some line => s.quote line
  | _, _ => []

/-- The diagnostic for a reader, with or without the quoted source. -/
def render (d : Diagnostic) (showSource : Bool := true) : String :=
  "\n".intercalate <|
    d.header :: ((if showSource then d.quotation else []) ++
      d.hints.map fun hint => "    = hint: " ++ hint)

end Diagnostic

/-- A place for a tool. -/
def Location.toJson (l : Location) : Json :=
  .object [("line", .number l.line), ("column", .number l.column), ("offset", .number l.offset)]

/-- A stretch of text for a tool. -/
def Span.toJson (s : Span) : Json :=
  .object [("start", s.start.toJson), ("end", s.stop.toJson)]

/-- The diagnostic for a tool. -/
def Diagnostic.toJson (d : Diagnostic) : Json :=
  .object <|
    [("code", .text d.code), ("message", .text d.message), ("severity", .text "error"),
      ("hints", .list (d.hints.map .text))] ++
    match d.span with
    | some s => [("range", s.toJson)]
    | none => []

/-- Diagnostics in the order in which they were found, and how many are too many. -/
structure Report where
  limit : Int := 20
  diagnostics : Array Diagnostic := #[]
deriving DecidableEq, Repr, Inhabited

namespace Report

/-- The report with one more diagnostic. -/
def add (r : Report) (d : Diagnostic) : Report :=
  { r with diagnostics := r.diagnostics.push d }

/-- How many diagnostics there are. -/
def count (r : Report) : Nat :=
  r.diagnostics.size

/-- Whether the limit is reached. -/
def isFull (r : Report) : Bool :=
  r.limit ≤ r.count

/-- The messages alone. -/
def messages (r : Report) : List String :=
  r.diagnostics.toList.map Diagnostic.message

/-- All diagnostics for a reader, a blank line between them and their number at
the end. -/
def render (r : Report) (showSource : Bool := true) : String :=
  "\n\n".intercalate <|
    r.diagnostics.toList.map (·.render showSource) ++
      if r.count = 0 then [] else [toString r.count ++ " error(s)"]

/-- All diagnostics for a tool. -/
def toJson (r : Report) : Json :=
  .object [("diagnostics", .list (r.diagnostics.toList.map Diagnostic.toJson)),
    ("error_count", .number r.count)]

end Report

end Ember

import Ember.Text.CodePoint

/-!
# Lines of a text

A text is divided at every line break; a carriage return followed by a line
feed is one break. A break at the very end starts no further line.
-/

namespace Ember.Text

/-- The characters that end a line. -/
def lineBreakRanges : Ranges := [
  (0xa, 0xd), (0x1c, 0x1e), (0x85, 0x85), (0x2028, 0x2029)]

/-- A character that ends a line. -/
def isLineBreak (c : Char) : Bool :=
  inRanges lineBreakRanges c

/-- The lines of a text whose first line starts with the reverse of `begun`. -/
def splitLines (begun : List Char) : List Char → List (List Char)
  | [] => if begun.isEmpty then [] else [begun.reverse]
  | '\r' :: '\n' :: cs => begun.reverse :: splitLines [] cs
  | c :: cs =>
    if isLineBreak c then begun.reverse :: splitLines [] cs else splitLines (c :: begun) cs

/-- The lines of a text, without their breaks. -/
def lines (s : String) : List String :=
  (splitLines [] s.toList).map String.ofList

end Ember.Text

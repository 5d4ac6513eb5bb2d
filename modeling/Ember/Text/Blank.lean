import Ember.Text.CodePoint

/-!
# Blanks

The characters that separate tokens and that surround a line or a number
without being part of it.
-/

namespace Ember.Text

/-- The blanks: tabs, line breaks, spaces and the information separators. -/
def blankRanges : Ranges := [
  (0x9, 0xd), (0x1c, 0x20), (0x85, 0x85), (0xa0, 0xa0), (0x1680, 0x1680), (0x2000, 0x200a),
  (0x2028, 0x2029), (0x202f, 0x202f), (0x205f, 0x205f), (0x3000, 0x3000)]

/-- A character that only separates. -/
def isBlank (c : Char) : Bool :=
  inRanges blankRanges c

/-- A list of characters without those at both ends that satisfy `p`. -/
def trimChars (p : Char → Bool) (cs : List Char) : List Char :=
  (((cs.dropWhile p).reverse).dropWhile p).reverse

/-- A text without the blanks at its two ends. -/
def trim (s : String) : String :=
  String.ofList (trimChars isBlank s.toList)

end Ember.Text

import Ember.Text.CodePoint

/-!
# Places in a YAML text

A place is what is left of the text with the column of its first character. The
line ends of a file are line feeds by the time it is looked at, so a break is one
character; the next line and the two separators of Unicode are breaks as well.
-/

namespace Ember.Yaml

/-- The characters that may occur in a text. -/
def printableRanges : Text.Ranges := [
  (0x9, 0xa), (0xd, 0xd), (0x20, 0x7e), (0x85, 0x85), (0xa0, 0xd7ff), (0xe000, 0xfffd),
  (0x10000, 0x10ffff)]

/-- A character that may occur in a text. -/
def isAllowed (c : Char) : Bool :=
  Text.inRanges printableRanges c

/-- A character that ends a line. -/
def isBreak (c : Char) : Bool :=
  c = '\n' || c = '\x85' || c = '\u2028' || c = '\u2029'

/-- What a break stands for in a scalar: a line feed, or the separator itself. -/
def breakValue (c : Char) : Char :=
  if c = '\x85' then '\n' else c

/-- A space, a tab or a break. -/
def isSpacing (c : Char) : Bool :=
  c = ' ' || c = '\t' || isBreak c

/-- Whether a character that may be absent separates what is before it. -/
def separates (c : Option Char) : Bool :=
  match c with
  | none => true
  | some c => isSpacing c

/-- What is left of a text, and the column of its first character. -/
structure Rest where
  chars : List Char
  column : Nat := 0
deriving DecidableEq, Repr

namespace Rest

/-- The next character. -/
def next? (r : Rest) : Option Char :=
  r.chars.head?

/-- The place `n` characters further on in the same line. -/
def skip (r : Rest) (n : Nat) : Rest :=
  { chars := r.chars.drop n, column := r.column + n }

/-- The place behind the characters in front that satisfy `p`, none of them a
break. -/
def skipWhile (r : Rest) (p : Char → Bool) : Rest :=
  r.skip (r.chars.takeWhile p).length

/-- Whether a line starts here that separates documents. -/
def atMarker (r : Rest) : Bool :=
  r.column = 0 &&
    match r.chars with
    | '-' :: '-' :: '-' :: cs => separates cs.head?
    | '.' :: '.' :: '.' :: cs => separates cs.head?
    | _ => false

/-- The place of the next thing in the text, and whether a line was ended before
it: spaces, comments and breaks are passed over. -/
def skipFiller (inComment endedLine : Bool) (column : Nat) : List Char → Rest × Bool
  | [] => ({ chars := [], column }, endedLine)
  | c :: cs =>
    if isBreak c then skipFiller false true 0 cs
    else if inComment || c = ' ' then skipFiller inComment endedLine (column + 1) cs
    else if c = '#' then skipFiller true endedLine (column + 1) cs
    else ({ chars := c :: cs, column }, endedLine)

/-- Spaces and breaks behind a break, and the values of those breaks; nothing at a
line that separates documents. -/
def moreBreaks (column : Nat) : List Char → Option (List Char × Rest)
  | [] => some ([], { chars := [], column })
  | c :: cs =>
    if ({ chars := c :: cs, column } : Rest).atMarker then none
    else if c = ' ' then moreBreaks (column + 1) cs
    else if isBreak c then
      (moreBreaks 0 cs).map fun (breaks, r) => (breakValue c :: breaks, r)
    else some ([], { chars := c :: cs, column })

/-- The same with tabs passed over too, as inside quotes. -/
def moreQuotedBreaks (column : Nat) : List Char → Option (List Char × Rest)
  | [] => some ([], { chars := [], column })
  | c :: cs =>
    if ({ chars := c :: cs, column } : Rest).atMarker then none
    else if c = ' ' || c = '\t' then moreQuotedBreaks (column + 1) cs
    else if isBreak c then
      (moreQuotedBreaks 0 cs).map fun (breaks, r) => (breakValue c :: breaks, r)
    else some ([], { chars := c :: cs, column })

end Rest

/-- What a break and the breaks behind it leave in a scalar: a single line feed
joins two lines by a space, and further ones remain. -/
def foldBreaks (first : Char) (more : List Char) : List Char :=
  if breakValue first ≠ '\n' then breakValue first :: more
  else if more.isEmpty then [' ']
  else more

end Ember.Yaml

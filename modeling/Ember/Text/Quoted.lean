import Ember.Text.Printable

/-!
# Quoted text

A text between quotes on one line. The quote is `'`, or `"` when the text has a
`'` and no `"`. The quote in use and the backslash are escaped; so is every
character that is not printable, by its code point in lower-case hexadecimal
digits.
-/

namespace Ember.Text

/-- The digits of `n` to the base sixteen, at least `width` of them. -/
def hexDigits (width n : Nat) : List Char :=
  let digits := Nat.toDigits 16 n
  List.replicate (width - digits.length) '0' ++ digits

/-- The escape of a character by its code point: two, four or eight digits. -/
def escapeCodePoint (n : Nat) : List Char :=
  if n ≤ 0xff then '\\' :: 'x' :: hexDigits 2 n
  else if n ≤ 0xffff then '\\' :: 'u' :: hexDigits 4 n
  else '\\' :: 'U' :: hexDigits 8 n

/-- One character of quoted text, for the given quote. -/
def quoteChar (quote c : Char) : List Char :=
  if c = quote ∨ c = '\\' then ['\\', c]
  else if c = '\n' then ['\\', 'n']
  else if c = '\r' then ['\\', 'r']
  else if c = '\t' then ['\\', 't']
  else if isPrintable c then [c]
  else escapeCodePoint c.toNat

/-- The quote that a text is written with. -/
def quoteOf (cs : List Char) : Char :=
  if cs.contains '\'' && !cs.contains '"' then '"' else '\''

/-- The characters of a text in quotes. -/
def quotedChars (cs : List Char) : List Char :=
  let quote := quoteOf cs
  quote :: (cs.flatMap (quoteChar quote) ++ [quote])

/-- A text in quotes. -/
def quoted (s : String) : String :=
  String.ofList (quotedChars s.toList)

end Ember.Text

import Ember.Fault
import Ember.Text.Blank
import Ember.Text.Digit

/-!
# Numerals

An integer as people type it: blanks around it, a sign, decimal digits of any
script, and single underscores between digits.
-/

namespace Ember.Text

/-- The blanks that may surround a numeral: all but the information separators. -/
def isNumeralBlank (c : Char) : Bool :=
  isBlank c && !(0x1c ≤ c.toNat && c.toNat ≤ 0x1f)

/-- The values of digits with single underscores between them. -/
def digitValues? : List Char → Option (List Nat)
  | [] => none
  | [c] => (digitValue? c).map ([·])
  | c :: '_' :: cs => do
    let d ← digitValue? c
    return d :: (← digitValues? cs)
  | c :: cs => do
    let d ← digitValue? c
    return d :: (← digitValues? cs)

/-- The integer that a numeral stands for; one with too many digits stands for
none. -/
def readInteger? (s : String) : Option Int := do
  let (sign, cs) : Int × List Char := match trimChars isNumeralBlank s.toList with
    | '-' :: cs => (-1, cs)
    | '+' :: cs => (1, cs)
    | cs => (1, cs)
  let digits ← digitValues? cs
  if digits.length ≤ maxDigits then
    return sign * (digits.foldl (fun value d => 10 * value + d) 0 : Nat)
  else none

end Ember.Text

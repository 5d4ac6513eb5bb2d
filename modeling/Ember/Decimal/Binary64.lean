import Ember.Text.Digit

/-!
# Numbers with 53 binary digits

A number of the format is a mantissa below `2 ^ 53` times a power of two, an
infinity, or no number at all. Everything is computed in exact integers:
`ofRatio` rounds a quotient to the nearest number, a tie to the even mantissa,
and the arithmetic rounds the exact result.
-/

namespace Ember

/-- A binary number with 53 digits: `mantissa * 2 ^ exponent` with its sign. -/
inductive Binary64 where
  | finite (negative : Bool) (mantissa : Nat) (exponent : Int)
  | infinite (negative : Bool)
  | notANumber
deriving DecidableEq, Repr, Inhabited

namespace Binary64

/-- The number of binary digits of a mantissa. -/
def digits : Nat := 53

/-- The smallest exponent. -/
def minExponent : Int := -1074

/-- The largest exponent of a mantissa with all its digits. -/
def maxExponent : Int := 971

/-- The number zero. -/
def zero : Binary64 := finite false 0 minExponent

/-- The quotient of two naturals, rounded to the nearest one, a tie to the even. -/
def divideToEven (a b : Nat) : Nat :=
  let q := a / b
  match compare (2 * (a % b)) b with
  | .lt => q
  | .gt => q + 1
  | .eq => if q % 2 = 0 then q else q + 1

/-- `a / b` scaled by `2 ^ (-exponent)`, as a quotient of naturals. -/
def scaled (a b : Nat) (exponent : Int) : Nat × Nat :=
  if 0 ≤ exponent then (a, b * Nat.pow 2 exponent.toNat) else (a * Nat.pow 2 (-exponent).toNat, b)

/-- The exponent that a quotient of two positive naturals is rounded at: the one
that leaves 53 binary digits, but no smaller than the smallest. -/
def roundingExponent (a b : Nat) : Int :=
  let guess : Int := (a.log2 : Int) - (b.log2 : Int) - digits
  let (x, y) := scaled a b guess
  max minExponent (if x / y < Nat.pow 2 digits then guess else guess + 1)

/-- The number nearest to `a / b`, for a positive `b`. -/
def ofRatio (negative : Bool) (a b : Nat) : Binary64 :=
  if a = 0 then finite negative 0 minExponent
  else
    let exponent := roundingExponent a b
    let (x, y) := scaled a b exponent
    let mantissa := divideToEven x y
    let (mantissa, exponent) :=
      if mantissa = Nat.pow 2 digits then (Nat.pow 2 (digits - 1), exponent + 1)
      else (mantissa, exponent)
    if maxExponent < exponent then infinite negative else finite negative mantissa exponent

/-- The number nearest to `coefficient * 10 ^ exponent`. Where the exponent alone
decides, no power is computed. -/
def ofDecimal (negative : Bool) (coefficient : Nat) (exponent : Int) : Binary64 :=
  let size : Int := (Nat.toDigits 10 coefficient).length + exponent
  if coefficient = 0 ∨ size < -400 then finite negative 0 minExponent
  else if 400 < size then infinite negative
  else if 0 ≤ exponent then ofRatio negative (coefficient * Nat.pow 10 exponent.toNat) 1
  else ofRatio negative coefficient (Nat.pow 10 (-exponent).toNat)

/-- The number nearest to an integer. -/
def ofInt (n : Int) : Binary64 :=
  ofRatio (n < 0) n.natAbs 1

/-- The same number with the other sign. -/
def negate : Binary64 → Binary64
  | finite negative mantissa exponent => finite (!negative) mantissa exponent
  | infinite negative => infinite (!negative)
  | notANumber => notANumber

/-- The mantissa with its sign. -/
def signed (negative : Bool) (mantissa : Nat) : Int :=
  if negative then -mantissa else mantissa

/-- The number nearest to `value * 2 ^ exponent`. -/
def ofScaled (negative : Bool) (value : Nat) (exponent : Int) : Binary64 :=
  if 0 ≤ exponent then ofRatio negative (value * Nat.pow 2 exponent.toNat) 1
  else ofRatio negative value (Nat.pow 2 (-exponent).toNat)

/-- The sum, rounded. -/
def add : Binary64 → Binary64 → Binary64
  | finite s m e, finite t n f =>
    let low := min e f
    let sum := signed s m * Nat.pow 2 (e - low).toNat + signed t n * Nat.pow 2 (f - low).toNat
    ofScaled (if sum = 0 then s && t else sum < 0) sum.natAbs low
  | infinite s, infinite t => if s = t then infinite s else notANumber
  | infinite s, finite .. | finite .., infinite s => infinite s
  | _, _ => notANumber

/-- The product, rounded. -/
def multiply : Binary64 → Binary64 → Binary64
  | finite s m e, finite t n f => ofScaled (s != t) (m * n) (e + f)
  | infinite s, infinite t => infinite (s != t)
  | infinite s, finite t m _ | finite t m _, infinite s =>
    if m = 0 then notANumber else infinite (s != t)
  | _, _ => notANumber

/-- The integer next to a finite number on the way to zero. -/
def truncate? : Binary64 → Option Int
  | finite negative mantissa exponent =>
    let magnitude :=
      if 0 ≤ exponent then mantissa * Nat.pow 2 exponent.toNat
      else mantissa / Nat.pow 2 (-exponent).toNat
    some (signed negative magnitude)
  | _ => none

/-- The integer that a number is, if it is one. -/
def integer? (x : Binary64) : Option Int :=
  x.truncate?.filter fun n => ofInt n = x ∨ n = 0 ∧ x matches finite _ 0 _

/-! ## Reading -/

/-- The digits at the front of a list of characters, and the rest. -/
def takeDigits (cs : List Char) : List Char × List Char :=
  cs.span Text.isDigit

/-- A sign at the front, and the rest. -/
def takeSign : List Char → Bool × List Char
  | '-' :: cs => (true, cs)
  | '+' :: cs => (false, cs)
  | cs => (false, cs)

/-- The exponent that ends a numeral; no characters at all are the exponent zero. -/
def readExponent? : List Char → Option Int
  | [] => some 0
  | c :: cs =>
    if c = 'e' ∨ c = 'E' then
      let (negative, cs) := takeSign cs
      match takeDigits cs with
      | ([], _) | (_, _ :: _) => none
      | (ds, []) => some (signed negative (Text.digitsValue ds))
    else none

/-- Reads digits with an optional point and exponent. -/
def readMagnitude? (negative : Bool) (cs : List Char) : Option Binary64 :=
  let (whole, cs) := takeDigits cs
  let (fraction, cs) : List Char × List Char := match cs with
    | '.' :: cs => takeDigits cs
    | cs => ([], cs)
  if whole.isEmpty && fraction.isEmpty then none
  else
    (readExponent? cs).map fun exponent =>
      ofDecimal negative (Text.digitsValue (whole ++ fraction)) (exponent - fraction.length)

/-- Reads a numeral, an infinity or the word for no number. -/
def read? (text : String) : Option Binary64 :=
  let (negative, cs) := takeSign text.toList
  match String.ofList (cs.map Char.toLower) with
  | "inf" | "infinity" => some (infinite negative)
  | "nan" => some notANumber
  | _ => readMagnitude? negative cs

end Binary64

end Ember

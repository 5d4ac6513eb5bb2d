import Ember.Decimal.Binary64

/-!
# The shortest decimal that reads back

A binary number is written with the fewest decimal digits that are read as the
same number. The reals that round to it are an interval, whose ends belong to it
when the mantissa is even. For one digit, two digits and so on, the two
neighbours of the number on that decimal grid are tried, and the nearer of those
inside the interval is taken.
-/

namespace Ember

namespace Binary64

/-- A decimal `coefficient * 10 ^ exponent`. -/
structure Decimal where
  coefficient : Nat
  exponent : Int
deriving DecidableEq, Repr, Inhabited

/-- The value and the two ends of its interval, all over one denominator. -/
structure Interval where
  low : Nat
  value : Nat
  high : Nat
  denominator : Nat
  /-- Whether the ends are part of it. -/
  closed : Bool
deriving DecidableEq, Repr

/-- The reals that round to `mantissa * 2 ^ exponent`. Below a power of two the
neighbour is nearer, and so is the end. -/
def interval (mantissa : Nat) (exponent : Int) : Interval :=
  let narrow := mantissa = Nat.pow 2 (digits - 1) ∧ minExponent < exponent
  let scale := if 0 ≤ exponent then Nat.pow 2 exponent.toNat else 1
  { low := (4 * mantissa - if narrow then 1 else 2) * scale
    value := 4 * mantissa * scale
    high := (4 * mantissa + 2) * scale
    denominator := if 0 ≤ exponent then 4 else 4 * Nat.pow 2 (-exponent).toNat
    closed := mantissa % 2 = 0 }

namespace Interval

/-- The interval with everything multiplied by `10 ^ (-exponent)`. -/
def onGrid (i : Interval) (exponent : Int) : Interval :=
  if 0 ≤ exponent then { i with denominator := i.denominator * Nat.pow 10 exponent.toNat }
  else
    let factor := Nat.pow 10 (-exponent).toNat
    { i with low := i.low * factor, value := i.value * factor, high := i.high * factor }

/-- Whether a natural lies in the interval. -/
def holds (i : Interval) (n : Nat) : Bool :=
  let x := n * i.denominator
  if i.closed then i.low ≤ x && x ≤ i.high else i.low < x && x < i.high

/-- The natural nearest to the value among its two neighbours in the interval; of
two at one distance the even one. -/
def nearest? (i : Interval) : Option Nat :=
  let below := i.value / i.denominator
  let above := below + 1
  match i.holds below, i.holds above with
  | true, true =>
    match compare (2 * (i.value % i.denominator)) i.denominator with
    | .lt => some below
    | .gt => some above
    | .eq => some (if below % 2 = 0 then below else above)
  | true, false => some below
  | false, true => some above
  | false, false => none

/-- The exponent of the first decimal digit of the value. -/
def leadingExponent (i : Interval) : Int :=
  let guess : Int :=
    ((Nat.toDigits 10 i.value).length : Int) - (Nat.toDigits 10 i.denominator).length
  let scaled := i.onGrid guess
  if scaled.value < scaled.denominator then guess - 1 else guess

/-- The decimal on the coarsest grid that has one, beginning with `count` digits
and trying at most `tries` grids. -/
def shortest (i : Interval) (leading : Int) (count : Nat) : Nat → Decimal
  | 0 => { coefficient := 0, exponent := 0 }
  | tries + 1 =>
    let exponent := leading - count + 1
    match (i.onGrid exponent).nearest? with
    | some coefficient => { coefficient, exponent }
    | none => shortest i leading (count + 1) tries

end Interval

/-- Without the zeros at the end of the coefficient, of which there are at most
`n`. -/
def Decimal.strip (d : Decimal) : Nat → Decimal
  | 0 => d
  | n + 1 =>
    if d.coefficient % 10 = 0 then
      strip { coefficient := d.coefficient / 10, exponent := d.exponent + 1 } n
    else d

/-- The shortest decimal that reads back as `mantissa * 2 ^ exponent`; seventeen
digits always do. -/
def shortestDecimal (mantissa : Nat) (exponent : Int) : Decimal :=
  let i := interval mantissa exponent
  (i.shortest i.leadingExponent 1 17).strip 17

/-! ## Text -/

/-- The exponents of the first digit that are written without an exponent. -/
def isPositional (leading : Int) : Bool :=
  -4 ≤ leading && leading < 16

/-- An exponent with its sign and at least two digits. -/
def exponentText (e : Int) : List Char :=
  let ds := Nat.toDigits 10 e.natAbs
  (if e < 0 then '-' else '+') :: (List.replicate (2 - ds.length) '0' ++ ds)

/-- Digits with a point, `whole` of them in front of it and at least one on either
side. -/
def placePoint (ds : List Char) (whole : Int) : List Char :=
  if whole ≤ 0 then '0' :: '.' :: (List.replicate (-whole).toNat '0' ++ ds)
  else
    let n := whole.toNat
    let front := ds.take n ++ List.replicate (n - ds.length) '0'
    match ds.drop n with
    | [] => front ++ ['.', '0']
    | fraction => front ++ '.' :: fraction

/-- Digits with a point behind the first, if more follow. -/
def placeFirstPoint : List Char → List Char
  | [] => []
  | [d] => [d]
  | d :: ds => d :: '.' :: ds

/-- A decimal as text. -/
def Decimal.chars (d : Decimal) : List Char :=
  let ds := Nat.toDigits 10 d.coefficient
  let leading : Int := d.exponent + ds.length - 1
  if isPositional leading then placePoint ds (leading + 1)
  else placeFirstPoint ds ++ 'e' :: exponentText leading

/-- A number as text: the shortest decimal that reads back, positional from
`0.0001` up to `10 ^ 16`. -/
def render : Binary64 → String
  | finite negative mantissa exponent =>
    let chars := if mantissa = 0 then ['0', '.', '0'] else (shortestDecimal mantissa exponent).chars
    String.ofList (if negative then '-' :: chars else chars)
  | infinite negative => if negative then "-inf" else "inf"
  | notANumber => "nan"

end Binary64

end Ember

import Ember.Datum

/-!
# What plain scalars stand for

A plain scalar is a truth value, a number, a day, a moment or nothing if it is
written like one, and a text otherwise. `plainDatum` decides; it is malformed to
use one of the two marks that only keys may be, and a number or day that is
written well but does not exist is a `ReadFault`.
-/

namespace Ember.Yaml

/-- Why a scalar that is written well stands for nothing. -/
inductive ReadFault where
  /-- A day or time that does not exist. -/
  | calendar (fault : CalendarFault)
  /-- A number with too many digits. -/
  | number (fault : Fault)
  /-- A number to a base without any digits. -/
  | noDigits (base : Nat)
deriving DecidableEq, Repr

/-- The text of a fault. -/
def ReadFault.message : ReadFault → String
  | calendar fault => fault.message
  | number fault => fault.message
  | noDigits base => "invalid literal for int() with base " ++ toString base ++ ": ''"

/-- Why a text is no datum. -/
inductive ReadError where
  | malformed
  | fault (fault : ReadFault)
deriving DecidableEq, Repr

/-! ## Words -/

/-- The truth value of a word. -/
def boolean? (s : String) : Option Bool :=
  if s ∈ ["yes", "Yes", "YES", "true", "True", "TRUE", "on", "On", "ON"] then some true
  else if s ∈ ["no", "No", "NO", "false", "False", "FALSE", "off", "Off", "OFF"] then some false
  else none

/-- Whether a word stands for nothing. -/
def isNull (s : String) : Bool :=
  s ∈ ["", "~", "null", "Null", "NULL"]

/-! ## Integers -/

/-- Characters without the underscores that group them. -/
def ungrouped (cs : List Char) : List Char :=
  cs.filter (· ≠ '_')

/-- Whether there are characters, all of them underscores or such that satisfy `p`. -/
def isGrouped (p : Char → Bool) (cs : List Char) : Bool :=
  !cs.isEmpty && cs.all fun c => c = '_' || p c

/-- The value of a digit of any base up to sixteen. -/
def digitOfBase (c : Char) : Nat :=
  if c ≤ '9' then c.toNat - '0'.toNat else c.toLower.toNat - 'a'.toNat + 10

/-- The integer of digits to a base. -/
def integerOfBase (base : Nat) (cs : List Char) : Except ReadFault Nat :=
  let digits := ungrouped cs
  if digits.isEmpty then .error (.noDigits base)
  else .ok (digits.foldl (fun value c => base * value + digitOfBase c) 0)

/-- The integer of decimal digits. -/
def integerOfDigits (cs : List Char) : Except ReadFault Nat :=
  let digits := ungrouped cs
  if maxDigits < digits.length then .error (.number (.literalTooLong digits.length))
  else .ok (Text.digitsValue digits)

/-- Characters divided at a character. -/
def divideAt (separator : Char) : List Char → List (List Char)
  | [] => [[]]
  | c :: cs =>
    match divideAt separator cs with
    | [] => [[c]]
    | part :: parts => if c = separator then [] :: part :: parts else (c :: part) :: parts

/-- Whether a part is a number below sixty. -/
def isSixtieth : List Char → Bool
  | [c] => Text.isDigit c
  | [c, d] => '0' ≤ c && c ≤ '5' && Text.isDigit d
  | _ => false

/-- The magnitude that characters are the decimal digits of, or the parts to the base
sixty. -/
def decimalInteger? (cs : List Char) : Option (Except ReadFault Nat) :=
  match divideAt ':' cs with
  | first :: parts =>
    if isGrouped Text.isDigit first ∧ first.head? ≠ some '_' ∧ first.head? ≠ some '0' ∧
        parts.all isSixtieth then
      some do
        let values ← (first :: parts).mapM integerOfDigits
        return values.foldl (fun value part => 60 * value + part) 0
    else none
  | [] => none

/-- The magnitude that characters are the digits of, to the base that their start
tells. -/
def magnitude? (cs : List Char) : Option (Except ReadFault Nat) :=
  match cs with
  | ['0'] => some (.ok 0)
  | '0' :: 'b' :: digits =>
    if isGrouped (fun c => c = '0' || c = '1') digits then some (integerOfBase 2 digits) else none
  | '0' :: 'x' :: digits =>
    if isGrouped (fun c => Text.isDigit c || ('a' ≤ c.toLower && c.toLower ≤ 'f')) digits then
      some (integerOfBase 16 digits)
    else none
  | '0' :: digits =>
    if isGrouped (fun c => '0' ≤ c && c ≤ '7') digits then some (integerOfBase 8 cs) else none
  | cs => decimalInteger? cs

/-- The integer that characters are written like, if they are. -/
def integer? (cs : List Char) : Option (Except ReadFault Int) :=
  let (negative, magnitude) := Binary64.takeSign cs
  (magnitude? magnitude).map fun value =>
    value.map fun (value : Nat) => if negative then -(value : Int) else value

/-! ## Floating numbers -/

/-- Whether characters are an exponent with a sign, or none at all. -/
def isExponent : List Char → Bool
  | [] => true
  | [_] => false
  | e :: sign :: digits =>
    (e = 'e' || e = 'E') && (sign = '-' || sign = '+') && !digits.isEmpty && digits.all Text.isDigit

/-- Whether characters are digits, a point, digits and an exponent; digits in front
of the point may be missing. -/
def isPointed (cs : List Char) : Bool :=
  let grouped (c : Char) : Bool := Text.isDigit c || c = '_'
  let (whole, rest) := cs.span grouped
  match rest with
  | '.' :: rest =>
    let (fraction, exponent) := rest.span grouped
    isExponent exponent && whole.head? ≠ some '_' &&
      (!whole.isEmpty || (!fraction.isEmpty && fraction.head? ≠ some '_'))
  | _ => false

/-- Whether characters are parts to the base sixty, the last with a point. -/
def isPointedSixtieths (cs : List Char) : Bool :=
  let (front, fraction) := cs.span (· ≠ '.')
  match divideAt ':' front, fraction with
  | first :: part :: parts, '.' :: fraction =>
    isGrouped Text.isDigit first && first.head? ≠ some '_' && (part :: parts).all isSixtieth &&
      fraction.all fun c => Text.isDigit c || c = '_'
  | _, _ => false

/-- The number of parts to the base sixty, summed from the last one on. -/
def ofSixtieths (parts : List Binary64) : Binary64 :=
  let step := fun (state : Binary64 × Int) part =>
    (state.1.add (part.multiply (.ofInt state.2)), 60 * state.2)
  (parts.reverse.foldl step (.zero, 1)).1

/-- The floating number that characters are written like, if they are. A sign needs a
digit behind it or an infinity. -/
def float? (cs : List Char) : Option Binary64 :=
  let (negative, magnitude) := Binary64.takeSign cs
  let signed := fun (x : Binary64) => if negative then x.negate else x
  let hasSign := magnitude.length ≠ cs.length
  if String.ofList magnitude ∈ [".inf", ".Inf", ".INF"] then some (.infinite negative)
  else if String.ofList cs ∈ [".nan", ".NaN", ".NAN"] then some .notANumber
  else if isPointed magnitude ∧ ¬(hasSign ∧ magnitude.head? = some '.') then
    (Binary64.read? (String.ofList (ungrouped magnitude))).map signed
  else if isPointedSixtieths magnitude then do
    let parts ← (divideAt ':' (ungrouped magnitude)).mapM fun part =>
      Binary64.read? (String.ofList part)
    return (.ofInt (if negative then -1 else 1) : Binary64).multiply (ofSixtieths parts)
  else none

/-! ## Days and moments -/

/-- A number of `least` up to `most` digits, and the rest. -/
def takeNumber (least most : Nat) (cs : List Char) : Option (Nat × List Char) :=
  let digits := (cs.takeWhile Text.isDigit).take most
  if digits.length < least then none
  else some (Text.digitsValue digits, cs.drop digits.length)

/-- The rest behind a character. -/
def takeChar (c : Char) : List Char → Option (List Char)
  | d :: cs => if d = c then some cs else none
  | [] => none

/-- A day: a year of four digits, and a month and a day of `least` or two. -/
def takeDate (least : Nat) (cs : List Char) : Option (Date × List Char) := do
  let (year, cs) ← takeNumber 4 4 cs
  let (month, cs) ← takeNumber least 2 (← takeChar '-' cs)
  let (day, cs) ← takeNumber least 2 (← takeChar '-' cs)
  return ({ year, month, day }, cs)

/-- The day that characters are, if they are one. -/
def date? (cs : List Char) : Option Date := do
  let (date, rest) ← takeDate 2 cs
  if rest.isEmpty then some date else none

/-- What stands between a day and its time. -/
def takeTimeMark (cs : List Char) : Option (List Char) :=
  match cs with
  | c :: rest =>
    if c = 'T' ∨ c = 't' then some rest
    else
      let rest := cs.dropWhile (· = ' ')
      if rest.length = cs.length then none else some rest
  | [] => none

/-- The parts of a second, of which six digits count, in millionths. -/
def takeFraction (cs : List Char) : Nat × List Char :=
  match cs with
  | '.' :: cs =>
    let digits := cs.takeWhile Text.isDigit
    let counted := digits.take 6
    (Text.digitsValue (counted ++ List.replicate (6 - counted.length) '0'), cs.drop digits.length)
  | cs => (0, cs)

/-- The offset from the common time in minutes, up to the end. -/
def zone? (cs : List Char) : Option (Option Int) :=
  match cs.dropWhile (· = ' ') with
  | [] => if cs.isEmpty then some none else none
  | ['Z'] => some (some 0)
  | sign :: rest => do
    if sign ≠ '-' ∧ sign ≠ '+' then none
    let (hours, rest) ← takeNumber 1 2 rest
    let (minutes, rest) ←
      if rest.isEmpty then some (0, []) else takeNumber 2 2 (← takeChar ':' rest)
    if !rest.isEmpty then none
    let offset : Int := 60 * hours + minutes
    return some (if sign = '-' then -offset else offset)

/-- The moment that characters are, if they are one. -/
def moment? (cs : List Char) : Option Moment := do
  let (date, cs) ← takeDate 1 cs
  let (hour, cs) ← takeNumber 1 2 (← takeTimeMark cs)
  let (minute, cs) ← takeNumber 2 2 (← takeChar ':' cs)
  let (second, cs) ← takeNumber 2 2 (← takeChar ':' cs)
  let (microsecond, cs) := takeFraction cs
  let offset ← zone? cs
  return { date, hour, minute, second, microsecond, offset }

/-! ## The choice -/

/-- The datum that a plain scalar stands for. -/
def plainDatum (text : String) : Except ReadError Datum :=
  let cs := text.toList
  match boolean? text with
  | some value => .ok (.boolean value)
  | none =>
    match float? cs, integer? cs with
    | some value, _ => .ok (.float value)
    | none, some value =>
      match value with
      | .ok value => .ok (.integer value)
      | .error fault => .error (.fault fault)
    | none, none =>
      if isNull text then .ok .null
      else if text = "<<" ∨ text = "=" then .error .malformed
      else
        match date? cs, moment? cs with
        | some date, _ =>
          match date.checked with
          | .ok date => .ok (.date date)
          | .error fault => .error (.fault (.calendar fault))
        | none, some moment =>
          match moment.checked with
          | .ok moment => .ok (.moment moment)
          | .error fault => .error (.fault (.calendar fault))
        | none, none => .ok (.text text)

end Ember.Yaml

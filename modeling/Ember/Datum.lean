import Ember.Datum.Moment
import Ember.Decimal.Shortest
import Ember.Value

/-!
# Data

The values that settings are given as: what a settings file or a caller may hand
over before it is known whether it fits. `Datum.describe` shows one in a message,
with one call for each level of it, and `Datum.sameKey` says when two keys of a mapping
are one key.
-/

namespace Ember

/-- A value of any kind. -/
inductive Datum where
  | null
  | boolean (value : Bool)
  | integer (value : Int)
  | float (value : Binary64)
  | text (value : String)
  | date (value : Date)
  | moment (value : Moment)
  | list (items : List Datum)
  | mapping (entries : List (Datum × Datum))
deriving Repr, Inhabited

namespace Datum

mutual

/-- A datum as it is shown in a message, where so many calls can be nested. -/
def describe : Datum → Nat → Except Fault String
  | _, 0 => .error (.nestedTooDeep "repr")
  | null, _ + 1 => .ok "None"
  | boolean value, _ + 1 => .ok (if value then "True" else "False")
  | integer value, _ + 1 => integerText value
  | float value, _ + 1 => .ok value.render
  | text value, _ + 1 => .ok (Text.quoted value)
  | date value, _ + 1 => .ok value.render
  | moment value, room + 1 =>
    if value.offsetLevels ≤ room then .ok value.render else .error (.nestedTooDeep "repr")
  | list items, room + 1 => do
    return "[" ++ ", ".intercalate (← describeItems items room) ++ "]"
  | mapping entries, room + 1 => do
    return "\x7b" ++ ", ".intercalate (← describeEntries entries room) ++ "\x7d"

/-- The items of a list. -/
def describeItems : List Datum → Nat → Except Fault (List String)
  | [], _ => .ok []
  | item :: items, room => do
    return (← describe item room) :: (← describeItems items room)

/-- The entries of a mapping. -/
def describeEntries : List (Datum × Datum) → Nat → Except Fault (List String)
  | [], _ => .ok []
  | (key, value) :: entries, room => do
    let shown := (← describe key room) ++ ": " ++ (← describe value room)
    return shown :: (← describeEntries entries room)

end

/-- The name of a datum's kind. -/
def kindName : Datum → String
  | null => "NoneType"
  | boolean _ => "bool"
  | integer _ => "int"
  | float _ => "float"
  | text _ => "str"
  | date _ => "datetime.date"
  | moment _ => "datetime.datetime"
  | list _ => "list"
  | mapping _ => "dict"

/-- The integer that a datum is equal to: a truth value counts as one or zero. -/
def integer? : Datum → Option Int
  | boolean value => some (if value then 1 else 0)
  | integer value => some value
  | float value => value.integer?
  | _ => none

/-- Whether a datum may be the key of a mapping. -/
def isKey : Datum → Bool
  | list _ | mapping _ => false
  | _ => true

/-- Whether two keys are one key; numbers are compared by their value. -/
def sameKey (a b : Datum) : Bool :=
  match a.integer?, b.integer? with
  | some m, some n => m = n
  | none, none =>
    match a, b with
    | null, null => true
    | float x, float y => x = y && x != .notANumber
    | text s, text t => s = t
    | date d, date e => d = e
    | moment m, moment n => m = n
    | _, _ => false
  | _, _ => false

/-- Whether a datum is a number; a truth value counts as one. -/
def isNumber : Datum → Bool
  | boolean _ | integer _ | float _ => true
  | _ => false

/-- Whether two keys have an order. Numbers have one among each other, and so do texts, days,
and moments that both have an offset or both have none. -/
def comparable (a b : Datum) : Bool :=
  match a, b with
  | text _, text _ | date _, date _ => true
  | moment m, moment n => m.offset.isSome = n.offset.isSome
  | a, b => a.isNumber && b.isNumber

/-- A finite number as an integer times a power of two. -/
def scaled? : Datum → Option (Int × Int)
  | boolean value => some (if value then 1 else 0, 0)
  | integer value => some (value, 0)
  | float (.finite negative mantissa exponent) => some (Binary64.signed negative mantissa, exponent)
  | _ => none

/-- Whether a number is less than another one; what is no number never is. -/
def less (a b : Datum) : Bool :=
  match a, b with
  | float (.infinite s), float (.infinite t) => s && !t
  | float (.infinite s), b => s && b.scaled?.isSome
  | a, float (.infinite t) => !t && a.scaled?.isSome
  | a, b =>
    match a.scaled?, b.scaled? with
    | some (m, e), some (n, f) =>
      let low := min e f
      m * Nat.pow 2 (e - low).toNat < n * Nat.pow 2 (f - low).toNat
    | _, _ => false

/-- The entries of a mapping with a value put at a key; the place of the first such
key is kept. -/
def putEntry (key value : Datum) : List (Datum × Datum) → List (Datum × Datum)
  | [] => [(key, value)]
  | (k, v) :: entries =>
    if k.sameKey key then (k, value) :: entries else (k, v) :: putEntry key value entries

/-- The entries of a mapping that is built up from the given ones; the last value of
a key counts, in the place of the first. -/
def ofEntries (entries : List (Datum × Datum)) : List (Datum × Datum) :=
  entries.foldl (fun found entry => putEntry entry.1 entry.2 found) []

/-- Whether a datum says nothing: no value, zero, false, and what is empty. -/
def isEmpty : Datum → Bool
  | null => true
  | boolean value => !value
  | integer value => value = 0
  | float value => value.integer? = some 0
  | text value => value.isEmpty
  | list items => items.isEmpty
  | mapping entries => entries.isEmpty
  | date _ | moment _ => false

end Datum

end Ember

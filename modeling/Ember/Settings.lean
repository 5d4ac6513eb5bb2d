import Ember.Datum
import Ember.Text.LowerCase
import Ember.Text.Numeral

/-!
# Settings

What a user may set about a session. `Settings.merged` applies named data to
settings: first every name has to be known, then the data have to fit, one after
the other in the order given. A `SettingsError` is either a cause that is reported
to the user or a fault that nobody reports.

A refusal shows what was given, for which `room` is the number of calls that can still be
nested.
-/

namespace Ember

/-- What a session is run with. -/
structure Settings where
  /-- What is written in front of every line that is read. -/
  prompt : String := ">> "
  /-- The line that ends a session. -/
  exitKeyword : String := "exit"
  /-- The number of problems that ends a parse. -/
  maxErrors : Int := 20
  /-- Whether diagnostics quote the source. -/
  showSource : Bool := true
  /-- The limit on the nesting. -/
  recursionLimit : Int := 10000
deriving DecidableEq, Repr, Inhabited

/-- One of the settings. -/
inductive Setting where
  | prompt
  | exitKeyword
  | maxErrors
  | showSource
  | recursionLimit
deriving DecidableEq, Repr, Inhabited

namespace Setting

/-- All settings in order. -/
def all : List Setting :=
  [prompt, exitKeyword, maxErrors, showSource, recursionLimit]

/-- The name of a setting. -/
def name : Setting → String
  | prompt => "prompt"
  | exitKeyword => "exit_keyword"
  | maxErrors => "max_errors"
  | showSource => "show_source"
  | recursionLimit => "recursion_limit"

/-- The setting with a name. -/
def ofName? (name : String) : Option Setting :=
  all.find? fun s => s.name = name

/-- The setting that a key names. -/
def ofKey? : Datum → Option Setting
  | .text name => ofName? name
  | _ => none

end Setting

/-- Why settings are refused; what was given is kept as it is shown. -/
inductive SettingsCause where
  | unknownKeys (names : List String)
  | notText (setting : Setting) (given : String)
  | notBoolean (setting : Setting) (given : String)
  | notInteger (setting : Setting) (given : String)
  | notPositive (setting : Setting) (given : String)
  | fileNotFound (path : String)
  | malformedFile (path : String)
  | notAMapping (path : String)
deriving DecidableEq, Repr

/-- The wording of a refusal. -/
def SettingsCause.message : SettingsCause → String
  | unknownKeys names => "unknown configuration key(s): " ++ ", ".intercalate names
  | notText s given => s.name ++ " must be a string, got " ++ given
  | notBoolean s given => s.name ++ " must be a boolean, got " ++ given
  | notInteger s given => s.name ++ " must be an integer, got " ++ given
  | notPositive s given => s.name ++ " must be a positive integer, got " ++ given
  | fileNotFound path => "config file not found: " ++ path
  | malformedFile path => "invalid YAML in " ++ path
  | notAMapping path => path ++ " must contain a mapping"

/-- What ends the merging of settings without being reported as a refusal. -/
inductive SettingsFault where
  /-- An infinite number where an integer is wanted. -/
  | infinite
  /-- An unknown key that is no text, so that it cannot be named. -/
  | keyNotText (kind : String)
  /-- Unknown keys of two kinds that have no order. -/
  | keysUnordered (left right : String)
  /-- A datum that cannot be shown. -/
  | unshown (fault : Fault)
deriving DecidableEq, Repr

/-- The text of a fault. -/
def SettingsFault.message : SettingsFault → String
  | infinite => "cannot convert float infinity to integer"
  | keyNotText kind => "sequence item 0: expected str instance, " ++ kind ++ " found"
  | keysUnordered left right =>
    match [left, right] with
    | ["datetime.datetime", "datetime.datetime"] =>
      "can't compare offset-naive and offset-aware datetimes"
    | ["datetime.datetime", "datetime.date"] | ["datetime.date", "datetime.datetime"] =>
      "can't compare datetime.datetime to datetime.date"
    | _ => "'<' not supported between instances of '" ++ left ++ "' and '" ++ right ++ "'"
  | unshown fault => fault.message

/-- Why no settings came out. -/
inductive SettingsError where
  | refused (cause : SettingsCause)
  | fault (fault : SettingsFault)
deriving DecidableEq, Repr

namespace SettingsError

/-- The text of an error. -/
def message : SettingsError → String
  | refused cause => cause.message
  | fault f => f.message

/-- The refusal of a datum, which is shown in it. -/
def refusal (room : Nat) (cause : String → SettingsCause) (given : Datum) : SettingsError :=
  match given.describe room with
  | .ok shown => refused (cause shown)
  | .error f => fault (.unshown f)

end SettingsError

/-! ## Fitting data -/

namespace Setting

variable (room : Nat)

/-- The words that stand for a truth value. -/
def booleanWord? (s : String) : Option Bool :=
  let word := Text.lowerCase s
  if word ∈ ["1", "true", "yes", "on"] then some true
  else if word ∈ ["0", "false", "no", "off"] then some false
  else none

/-- A datum as a text. -/
def readText (s : Setting) : Datum → Except SettingsError String
  | .text value => .ok value
  | given => .error (.refusal room (.notText s) given)

/-- A datum as a truth value. -/
def readBoolean (s : Setting) (given : Datum) : Except SettingsError Bool :=
  let value := match given with
    | .boolean value => some value
    | .text word => booleanWord? word
    | _ => none
  match value with
  | some value => .ok value
  | none => .error (.refusal room (.notBoolean s) given)

/-- A datum as an integer. A truth value is one or zero, and a number is cut off at
its point. -/
def readInteger (s : Setting) (given : Datum) : Except SettingsError Int :=
  let refused := SettingsError.refusal room (.notInteger s) given
  let orRefused (value : Option Int) : Except SettingsError Int :=
    match value with
    | some value => .ok value
    | none => .error refused
  match given with
  | .boolean value => .ok (if value then 1 else 0)
  | .integer value => .ok value
  | .float (.infinite _) => .error (.fault .infinite)
  | .float value => orRefused value.truncate?
  | .text value => orRefused (Text.readInteger? value)
  | _ => .error refused

/-- A datum as a positive integer; a truth value is none. -/
def readPositive (s : Setting) (given : Datum) : Except SettingsError Int := do
  let value ← s.readInteger room given
  if given matches .boolean _ ∨ value < 1 then .error (.refusal room (.notPositive s) given)
  else return value

end Setting

/-! ## Merging -/

namespace Settings

variable (room : Nat)

/-- The settings with a datum put at one of them, if it fits. -/
def set (s : Settings) (setting : Setting) (given : Datum) : Except SettingsError Settings :=
  match setting with
  | .prompt => do return { s with prompt := ← setting.readText room given }
  | .exitKeyword => do return { s with exitKeyword := ← setting.readText room given }
  | .maxErrors => do return { s with maxErrors := ← setting.readPositive room given }
  | .showSource => do return { s with showSource := ← setting.readBoolean room given }
  | .recursionLimit => do return { s with recursionLimit := ← setting.readPositive room given }

/-- The settings as named data. -/
def entries (s : Settings) : List (Datum × Datum) :=
  [(.text Setting.prompt.name, .text s.prompt),
    (.text Setting.exitKeyword.name, .text s.exitKeyword),
    (.text Setting.maxErrors.name, .integer s.maxErrors),
    (.text Setting.showSource.name, .boolean s.showSource),
    (.text Setting.recursionLimit.name, .integer s.recursionLimit)]

/-- The text of a key, if it is one. -/
def keyText? : Datum → Option String
  | .text name => some name
  | _ => none

/-- The smallest of some numbers. -/
def smallest (key : Datum) (keys : List Datum) : Datum :=
  keys.foldl (fun low key => if key.less low then key else low) key

/-- The fault of unknown keys that are not all texts: two of them have no order, or the
smallest cannot be named. -/
def keysFault : List Datum → SettingsFault
  | [] => .keyNotText ""
  | key :: keys =>
    match keys.find? fun other => !other.comparable key with
    | some other => .keysUnordered other.kindName key.kindName
    | none => .keyNotText (smallest key keys).kindName

/-- The error of unknown keys. They are named in order if they are all texts. -/
def unknownKeysError (keys : List Datum) : SettingsError :=
  match keys.mapM keyText? with
  | some names => .refused (.unknownKeys (names.mergeSort fun a b => a ≤ b))
  | none => .fault (keysFault keys)

/-- Puts named data into the settings one after the other. -/
def setAll (s : Settings) : List (Datum × Datum) → Except SettingsError Settings
  | [] => .ok s
  | (key, given) :: values =>
    match Setting.ofKey? key with
    | some setting => do (← s.set room setting given).setAll values
    | none => .error (unknownKeysError [key])

/-- The settings with named data applied. -/
def merged (s : Settings) (values : List (Datum × Datum)) : Except SettingsError Settings :=
  match (values.map Prod.fst).filter fun key => (Setting.ofKey? key).isNone with
  | [] => s.setAll room values
  | unknown => .error (unknownKeysError unknown)

/-- The settings as text, unless a number has too many digits. Their data are not nested. -/
def render (s : Settings) : Except Fault String := do
  let parts ← s.entries.mapM fun (key, value) => do
    return (keyText? key).getD "" ++ "=" ++ (← value.describe 1)
  return "EmberConfig(" ++ ", ".intercalate parts ++ ")"

end Settings

end Ember

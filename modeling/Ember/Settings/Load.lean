import Ember.Files
import Ember.Settings
import Ember.Yaml

/-!
# Loading settings

Settings come from three places: what is built in, a file, and the environment,
each of which counts more than the ones before. `Settings.load` puts them together,
whatever reads the text of the file as data.
-/

namespace Ember

/-- Variables of the environment by their names. -/
abbrev Environment := List (String × String)

/-- What reads the text of a settings file as a datum. -/
abbrev SettingsReader := String → Except Yaml.ReadError Datum

/-- The variable that names a settings file. -/
def settingsFileVariable : String := "EMBER_CONFIG"

/-- The variable that overrides a setting. -/
def Setting.variable : Setting → String
  | .prompt => "EMBER_PROMPT"
  | .exitKeyword => "EMBER_EXIT_KEYWORD"
  | .maxErrors => "EMBER_MAX_ERRORS"
  | .showSource => "EMBER_SHOW_SOURCE"
  | .recursionLimit => "EMBER_RECURSION_LIMIT"

/-- Why no settings could be loaded. -/
inductive LoadError where
  /-- The settings do not fit together. -/
  | settings (error : SettingsError)
  /-- The settings file is there but cannot be read. -/
  | file (error : FileError)
  /-- The settings file is no text. -/
  | encoding (error : Text.Utf8Error)
  /-- The settings file has a scalar that stands for nothing. -/
  | content (fault : Yaml.ReadFault)
deriving DecidableEq, Repr

namespace LoadError

/-- The text of an error. -/
def message : LoadError → String
  | settings error => error.message
  | file error => error.message
  | encoding error => error.message
  | content fault => fault.message

/-- The cause of an error that is reported to the user. -/
def cause? : LoadError → Option SettingsCause
  | settings (.refused cause) => some cause
  | _ => none

/-- A refusal of a settings file. -/
def refused (cause : SettingsCause) : LoadError :=
  settings (.refused cause)

end LoadError

namespace Settings

/-- A path without the parts that lead nowhere. -/
def tidyPath (path : String) : String :=
  let root :=
    if path.startsWith "//" && !path.startsWith "///" then "//"
    else if path.startsWith "/" then "/"
    else ""
  match root ++ "/".intercalate (Directory.names path) with
  | "" => "."
  | tidy => tidy

/-- The error of bytes that are no text. A file of settings is read in pieces, and a
character that its end cuts off is a piece of its own. -/
def encodingError (e : Text.Utf8Error) : LoadError :=
  .encoding (if e.cause = .unexpectedEnd then { e with position := 0 } else e)

/-- The named data of a settings file. A document that says nothing names none. -/
def fileEntries (read : SettingsReader) (files : Files) (path : String) :
    Except LoadError (List (Datum × Datum)) :=
  let path := tidyPath path
  match files.readText path with
  | .error (.file (.notFound _)) | .error (.file (.notADirectory _)) =>
    .error (.refused (.fileNotFound path))
  | .error (.file e) => .error (.file e)
  | .error (.encoding e) => .error (encodingError e)
  | .ok text =>
    match read text with
    | .error .malformed => .error (.refused (.malformedFile path))
    | .error (.fault fault) => .error (.content fault)
    | .ok (.mapping entries) => .ok entries
    | .ok datum => if datum.isEmpty then .ok [] else .error (.refused (.notAMapping path))

/-- The file that settings are read from: the given one or that of the environment; an
empty path counts as none. -/
def filePath? (path : Option String) (environment : Environment) : Option String :=
  match path.filter (· ≠ "") with
  | some path => some path
  | none => (environment.lookup settingsFileVariable).filter (· ≠ "")

/-- The named data of the environment. -/
def overrides (environment : Environment) : List (Datum × Datum) :=
  Setting.all.filterMap fun s =>
    (environment.lookup s.variable).map fun value => (.text s.name, .text value)

/-- The settings with named data applied. -/
def apply (room : Nat) (s : Settings) (values : List (Datum × Datum)) :
    Except LoadError Settings :=
  (s.merged room values).mapError .settings

/-- The settings of a file, if there is one, and of the environment. -/
def load (read : SettingsReader) (room : Nat) (files : Files) (path : Option String)
    (environment : Environment) : Except LoadError Settings := do
  let settings ← match filePath? path environment with
    | some path => apply room {} (← fileEntries read files path)
    | none => .ok {}
  settings.apply room (overrides environment)

end Settings

end Ember

import Ember.Text.Digit
import Ember.Text.Quoted

/-!
# Argument lists

Reads an argument list against a `Grammar` of options. A long option may be cut
short as long as one option is meant, a value may be attached to its option, and
options of one letter may be written in one word. What is no option is left to the
caller, in the order given.
-/

namespace Ember.Cli

/-- What an option asks for. -/
inductive Flag where
  | help
  | version
  | config
  | verbose
  | tree
  | json
deriving DecidableEq, Repr

/-- An option: its names, and whether a value belongs to it. -/
structure Switch where
  flag : Flag
  names : List String
  takesValue : Bool := false
deriving DecidableEq, Repr

/-- The options that may stand in an argument list. -/
abbrev Grammar := List Switch

/-- A value that is attached to an option, with or without an equals sign. -/
structure Attached where
  byEquals : Bool
  text : String
deriving DecidableEq, Repr

/-- What an argument is taken for. -/
inductive Word where
  /-- An option by one of its names. -/
  | option (switch : Switch) (name : String) (attached : Option Attached)
  /-- Something that looks like an option but is none of the grammar. -/
  | unknown
  | operand
  /-- The mark behind which there are no options. -/
  | separator
deriving DecidableEq, Repr

/-- Why an argument list is refused. -/
inductive ArgumentsCause where
  | ambiguous (given : String) (candidates : List String)
  | valueExpected (names : List String)
  | valueIgnored (names : List String) (value : String)
  | missing (name : String)
  | unknownCommand (given : String) (commands : List String)
  | unrecognized (arguments : List String)
deriving DecidableEq, Repr

/-- The text of a refusal. -/
def ArgumentsCause.message : ArgumentsCause → String
  | ambiguous given candidates =>
    "ambiguous option: " ++ given ++ " could match " ++ ", ".intercalate candidates
  | valueExpected names => "argument " ++ "/".intercalate names ++ ": expected one argument"
  | valueIgnored names value =>
    "argument " ++ "/".intercalate names ++ ": ignored explicit argument " ++ Text.quoted value
  | missing name => "the following arguments are required: " ++ name
  | unknownCommand given commands =>
    "argument action: invalid choice: " ++ Text.quoted given ++ " (choose from " ++
      ", ".intercalate (commands.map Text.quoted) ++ ")"
  | unrecognized arguments => "unrecognized arguments: " ++ " ".intercalate arguments

/-! ## Words -/

namespace Grammar

/-- The options by their names, in order. -/
def named (g : Grammar) : List (String × Switch) :=
  g.flatMap fun s => s.names.map (·, s)

/-- The option with a name. -/
def find? (g : Grammar) (name : String) : Option Switch :=
  g.named.lookup name

end Grammar

/-- The text up to the first equals sign, and the value behind it. -/
def splitValue (argument : String) : String × Option Attached :=
  match argument.toList.span (· ≠ '=') with
  | (_, []) => (argument, none)
  | (name, _ :: value) =>
    (String.ofList name, some { byEquals := true, text := String.ofList value })

/-- Whether an argument is a negative number, in digits of any script. -/
def isNegativeNumber (argument : String) : Bool :=
  let isDigit (c : Char) : Bool := (Text.digitValue? c).isSome
  match argument.toList with
  | '-' :: cs =>
    match cs.dropWhile isDigit with
    | [] => !cs.isEmpty
    | '.' :: fraction => !fraction.isEmpty && fraction.all isDigit
    | _ => false
  | _ => false

/-- The options that an argument may be short for. -/
def candidates (g : Grammar) (argument : String) : List Word :=
  if argument.startsWith "--" then
    let (start, attached) := splitValue argument
    g.named.filterMap fun (name, s) =>
      if name.startsWith start then some (.option s name attached) else none
  else
    let value := { byEquals := false, text := String.ofList (argument.toList.drop 2) : Attached }
    g.named.filterMap fun (name, s) =>
      if name = String.ofList (argument.toList.take 2) then some (.option s name (some value))
      else if name.startsWith argument then some (.option s name none)
      else none

/-- The name of an option in a word. -/
def Word.name? : Word → Option String
  | option _ name _ => some name
  | _ => none

/-- What an argument is taken for, in front of the separator. -/
def Word.ofArgument (g : Grammar) (argument : String) : Except ArgumentsCause Word :=
  if argument = "--" then .ok .separator
  else if !argument.startsWith "-" || argument = "-" then .ok .operand
  else
    match g.find? argument with
    | some s => .ok (.option s argument none)
    | none =>
      let (name, attached) := splitValue argument
      match attached.bind fun value => (g.find? name).map (·, value) with
      | some (s, value) => .ok (.option s name (some value))
      | none =>
        match candidates g argument with
        | [word] => .ok word
        | [] =>
          .ok (if isNegativeNumber argument || argument.contains ' ' then .operand else .unknown)
        | words => .error (.ambiguous argument (words.filterMap Word.name?))

/-- What the arguments of a list are taken for. -/
def words (g : Grammar) : List String → Except ArgumentsCause (List (String × Word))
  | [] => .ok []
  | argument :: arguments => do
    match ← Word.ofArgument g argument with
    | .separator => return (argument, .separator) :: arguments.map (·, .operand)
    | word => return (argument, word) :: (← words g arguments)

/-! ## Options -/

/-- An option that was given, with its value. -/
structure Given where
  flag : Flag
  value : Option String := none
deriving DecidableEq, Repr

/-- What a word with options gives: the options, what is left over of it, and whether
the next argument is used as a value. -/
structure OptionWord where
  given : List Given
  leftover : List String := []
  usesNext : Bool := false
deriving DecidableEq, Repr

/-- An option word with one more option in front. -/
def OptionWord.behind (g : Given) (w : OptionWord) : OptionWord :=
  { w with given := g :: w.given }

/-- An option without an attached value. -/
def readBare (s : Switch) (next : Option (String × Word)) : Except ArgumentsCause OptionWord :=
  if s.takesValue then
    match next with
    | some (value, .operand) => .ok { given := [⟨s.flag, some value⟩], usesNext := true }
    | _ => .error (.valueExpected s.names)
  else .ok { given := [⟨s.flag, none⟩] }

/-- An option with characters attached to it. If it takes no value, they are further
options of one letter each. -/
def readAttached (g : Grammar) (next : Option (String × Word)) (s : Switch) (name : String)
    (byEquals : Bool) : List Char → Except ArgumentsCause OptionWord
  | [] =>
    if s.takesValue then .ok { given := [⟨s.flag, some ""⟩] }
    else .error (.valueIgnored s.names "")
  | c :: cs =>
    let text := String.ofList (c :: cs)
    if s.takesValue then .ok { given := [⟨s.flag, some text⟩] }
    else if name.startsWith "--" || byEquals || c = '-' then .error (.valueIgnored s.names text)
    else
      let letter := String.ofList ['-', c]
      match g.find? letter with
      | none => .ok { given := [⟨s.flag, none⟩], leftover := ["-" ++ text] }
      | some other =>
        (match cs with
          | [] => readBare other next
          | '=' :: cs => readAttached g next other letter true cs
          | cs => readAttached g next other letter false cs).map (.behind ⟨s.flag, none⟩)

/-- An option word. -/
def readOption (g : Grammar) (next : Option (String × Word)) (s : Switch) (name : String)
    (attached : Option Attached) : Except ArgumentsCause OptionWord :=
  match attached with
  | none => readBare s next
  | some value => readAttached g next s name value.byEquals value.text.toList

end Ember.Cli

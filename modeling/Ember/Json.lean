import Ember.Text.Quoted

/-!
# JSON values

The values that diagnostics are handed to other tools as, and their text: one
member a line, two columns a level, and nothing beyond ASCII.
-/

namespace Ember

/-- A JSON value; the members of an object keep their order. -/
inductive Json where
  | null
  | boolean (value : Bool)
  | number (value : Int)
  | text (value : String)
  | list (items : List Json)
  | object (members : List (String × Json))
deriving Repr, Inhabited

namespace Json

/-- The two units that a character beyond the basic plane is written with. -/
def surrogates (n : Nat) : Nat × Nat :=
  (0xd800 + (n - 0x10000) / 0x400, 0xdc00 + (n - 0x10000) % 0x400)

/-- A unit of sixteen bits as an escape. -/
def escapeUnit (n : Nat) : List Char :=
  '\\' :: 'u' :: Text.hexDigits 4 n

/-- One character of a JSON text. -/
def escapeChar (c : Char) : List Char :=
  match c with
  | '"' => ['\\', '"']
  | '\\' => ['\\', '\\']
  | '\n' => ['\\', 'n']
  | '\r' => ['\\', 'r']
  | '\t' => ['\\', 't']
  | '\x08' => ['\\', 'b']
  | '\x0c' => ['\\', 'f']
  | c =>
    if ' ' ≤ c ∧ c ≤ '~' then [c]
    else if c.toNat < 0x10000 then escapeUnit c.toNat
    else
      let (high, low) := surrogates c.toNat
      escapeUnit high ++ escapeUnit low

/-- A text in double quotes, in ASCII. -/
def quote (s : String) : String :=
  String.ofList ('"' :: (s.toList.flatMap escapeChar ++ ['"']))

/-- The start of a line that is `depth` levels in. -/
def newLine (depth : Nat) : String :=
  "\n" ++ String.ofList (List.replicate (2 * depth) ' ')

/-- Items between brackets, one a line; nothing is put between empty ones. -/
def bracket (opening closing : String) (depth : Nat) (items : List String) : String :=
  match items with
  | [] => opening ++ closing
  | items =>
    opening ++ newLine (depth + 1) ++ ("," ++ newLine (depth + 1)).intercalate items ++
      newLine depth ++ closing

mutual

/-- A value whose first line is `depth` levels in. -/
def renderAt (depth : Nat) : Json → String
  | null => "null"
  | boolean true => "true"
  | boolean false => "false"
  | number value => toString value
  | text value => quote value
  | list items => bracket "[" "]" depth (renderItems (depth + 1) items)
  | object members => bracket "\x7b" "\x7d" depth (renderMembers (depth + 1) members)

/-- The items of a list. -/
def renderItems (depth : Nat) : List Json → List String
  | [] => []
  | item :: items => item.renderAt depth :: renderItems depth items

/-- The members of an object. -/
def renderMembers (depth : Nat) : List (String × Json) → List String
  | [] => []
  | (key, value) :: members =>
    (quote key ++ ": " ++ value.renderAt depth) :: renderMembers depth members

end

/-- A value as text over several lines. -/
def render (v : Json) : String :=
  v.renderAt 0

end Json

end Ember

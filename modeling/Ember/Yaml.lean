import Ember.Yaml.Resolve
import Ember.Yaml.Tree

/-!
# YAML

Reads the one document of a YAML text as a datum. Scalars between quotes and in
blocks are texts; a plain one is what it is written like. The keys of a mapping
are not collections, and the last value given for a key counts.
-/

namespace Ember.Yaml

/-- The kinds that a tag can ask of a scalar. -/
inductive ScalarTag where
  | plain
  | text
  | null
  | boolean
  | integer
  | float
deriving DecidableEq, Repr

/-- The kind that a tag asks of a scalar. Without one, it is the way of writing that
tells. -/
def scalarTag? (tag : Option String) (isPlain : Bool) : Option ScalarTag :=
  match tag with
  | none => some (if isPlain then .plain else .text)
  | some "!" => some .plain
  | some "!!str" => some .text
  | some "!!null" => some .null
  | some "!!bool" => some .boolean
  | some "!!int" => some .integer
  | some "!!float" => some .float
  | some _ => none

/-- The datum of a scalar. -/
def scalarDatum (tag : Option String) (isPlain : Bool) (text : String) : Except ReadError Datum :=
  match scalarTag? tag isPlain with
  | none => .error .malformed
  | some .plain => plainDatum text
  | some .text => .ok (.text text)
  | some .null => .ok .null
  | some kind => do
    match kind, ← plainDatum text with
    | .boolean, .boolean value => return .boolean value
    | .integer, .integer value => return .integer value
    | .float, .float value => return .float value
    | .float, .integer value => return .float (.ofInt value)
    | _, _ => throw .malformed

/-- Whether a tag fits a collection of the given kind. -/
def fitsCollection (tag : Option String) (kind : String) : Bool :=
  match tag with
  | none => true
  | some tag => tag = "!" || tag = kind

mutual

/-- The datum of a tree. -/
def Tree.datum : Tree → Except ReadError Datum
  | .scalar tag isPlain text => scalarDatum tag isPlain text
  | .sequence tag items => do
    if fitsCollection tag "!!seq" then return .list (← itemData items) else throw .malformed
  | .mapping tag entries => do
    if fitsCollection tag "!!map" then return .mapping (← entryData [] entries)
    else throw .malformed

/-- The data of items. -/
def itemData : List Tree → Except ReadError (List Datum)
  | [] => .ok []
  | item :: items => do
    return (← item.datum) :: (← itemData items)

/-- The entries of a mapping behind those that are there already. -/
def entryData (found : List (Datum × Datum)) :
    List (Tree × Tree) → Except ReadError (List (Datum × Datum))
  | [] => .ok found
  | (key, value) :: entries => do
    let key ← key.datum
    if !key.isKey then throw .malformed
    entryData (Datum.putEntry key (← value.datum) found) entries

end

/-- The datum of a YAML text; a text without a document is nothing. -/
def read (text : String) : Except ReadError Datum :=
  match (tokens? text).bind Tree.ofTokens? with
  | none => .error .malformed
  | some none => .ok .null
  | some (some tree) => tree.datum

end Ember.Yaml

import Ember.Yaml.Token

/-!
# Trees

The collections and scalars of a YAML document, before it is decided what the
scalars stand for. `Tree.ofTokens?` reads the one document of a token list; an
alias is replaced by what its anchor names.
-/

namespace Ember.Yaml

/-- A document or a part of it, with its tag. -/
inductive Tree where
  | scalar (tag : Option String) (isPlain : Bool) (text : String)
  | sequence (tag : Option String) (items : List Tree)
  | mapping (tag : Option String) (entries : List (Tree × Tree))
deriving Repr, Inhabited

namespace Tree

/-- A scalar that is left out. -/
def absent : Tree := scalar none true ""

end Tree

/-- The tokens that are left, and the trees that anchors name. -/
structure Composition where
  tokens : List Token
  anchors : List (String × Tree) := []

/-- Reads trees from tokens; it may fail. -/
abbrev Compose := StateT Composition Option

namespace Compose

/-- The next token. -/
def peek : Compose (Option Token) := do
  return (← get).tokens.head?

/-- Drops the next token. -/
def drop : Compose Unit :=
  modify fun c => { c with tokens := c.tokens.drop 1 }

/-- Drops the next token if it is the given one, and says whether it was. -/
def accept (token : Token) : Compose Bool := do
  if (← peek) = some token then
    drop
    return true
  else return false

/-- Drops the next token, which has to be the given one. -/
def expect (token : Token) : Compose Unit := do
  unless ← accept token do failure

/-- Whether the next token is one of the given ones. -/
def atAny (tokens : List Token) : Compose Bool := do
  return (← peek).any (· ∈ tokens)

/-- The anchor and the tag in front of a node, in either order, each at most once. -/
def properties : Compose (Option String × Option String) := do
  match ← peek with
  | some (.anchor name) =>
    drop
    match ← peek with
    | some (.tag text) =>
      drop
      return (some name, some text)
    | _ => return (some name, none)
  | some (.tag text) =>
    drop
    match ← peek with
    | some (.anchor name) =>
      drop
      return (some name, some text)
    | _ => return (none, some text)
  | _ => return (none, none)

/-- The tree that an anchor names. -/
def resolve (name : String) : Compose Tree := do
  match (← get).anchors.lookup name with
  | some tree => return tree
  | none => failure

/-- Gives a tree a name, which must be new. -/
def define (name : Option String) (tree : Tree) : Compose Unit := do
  match name with
  | none => return
  | some name =>
    if ((← get).anchors.lookup name).isSome then failure
    modify fun c => { c with anchors := (name, tree) :: c.anchors }

mutual

/-- A node. Block collections are possible outside of brackets, and a sequence that
is not indented is possible as the value of a key. -/
def node (inBlock unindented : Bool) : Nat → Compose Tree
  | 0 => failure
  | n + 1 => do
    match ← peek with
    | some (.alias name) =>
      drop
      resolve name
    | _ =>
      let (anchor, tag) ← properties
      let tree ← content inBlock unindented tag (anchor.isSome || tag.isSome) n
      define anchor tree
      return tree

/-- What stands behind the properties of a node; only where there are some may it
be left out. -/
def content (inBlock unindented : Bool) (tag : Option String) (mayBeAbsent : Bool) :
    Nat → Compose Tree
  | 0 => failure
  | n + 1 => do
    match ← peek with
    | some (.scalar isPlain text) =>
      drop
      return .scalar tag isPlain text
    | some .openSequence =>
      drop
      return .sequence tag (← flowItems true n)
    | some .openMapping =>
      drop
      return .mapping tag (← flowEntries true n)
    | some .openBlockSequence =>
      if inBlock then
        drop
        let items ← blockItems [.entry, .closeBlock] n
        expect .closeBlock
        return .sequence tag items
      else failure
    | some .openBlockMapping =>
      if inBlock then
        drop
        return .mapping tag (← blockEntries n)
      else failure
    | some .entry =>
      if unindented then
        return .sequence tag (← blockItems [.entry, .key, .value, .closeBlock] n)
      else if mayBeAbsent then return .scalar tag true ""
      else failure
    | _ => if mayBeAbsent then return .scalar tag true "" else failure

/-- The items behind dashes. One that is followed by one of the given tokens is left
out. -/
def blockItems (ends : List Token) : Nat → Compose (List Tree)
  | 0 => failure
  | n + 1 => do
    if ← accept .entry then
      let item ← if ← atAny ends then pure .absent else node true false n
      return item :: (← blockItems ends n)
    else return []

/-- The entries of a block mapping, to its end. -/
def blockEntries : Nat → Compose (List (Tree × Tree))
  | 0 => failure
  | n + 1 => do
    if ← accept .key then
      let ends := [Token.key, .value, .closeBlock]
      let key ← if ← atAny ends then pure .absent else node true true n
      let value ←
        if ← accept .value then
          if ← atAny ends then pure .absent else node true true n
        else pure .absent
      return (key, value) :: (← blockEntries n)
    else
      expect .closeBlock
      return []

/-- The items between square brackets, to the closing one. -/
def flowItems (isFirst : Bool) : Nat → Compose (List Tree)
  | 0 => failure
  | n + 1 => do
    if ← accept .closeSequence then return []
    unless isFirst do expect .comma
    if ← accept .closeSequence then return []
    let item ←
      if ← accept .key then
        let entry ← flowEntry .closeSequence n
        pure (.mapping none [entry])
      else node false false n
    return item :: (← flowItems false n)

/-- The entries between curly brackets, to the closing one. -/
def flowEntries (isFirst : Bool) : Nat → Compose (List (Tree × Tree))
  | 0 => failure
  | n + 1 => do
    if ← accept .closeMapping then return []
    unless isFirst do expect .comma
    if ← accept .closeMapping then return []
    let entry ←
      if ← accept .key then flowEntry .closeMapping n
      else do
        let key ← node false false n
        pure (key, .absent)
    return entry :: (← flowEntries false n)

/-- A key and its value between brackets; either may be left out. -/
def flowEntry (closing : Token) : Nat → Compose (Tree × Tree)
  | 0 => failure
  | n + 1 => do
    let key ← if ← atAny [.value, .comma, closing] then pure .absent else node false false n
    let value ←
      if ← accept .value then
        if ← atAny [.comma, closing] then pure .absent else node false false n
      else pure .absent
    return (key, value)

end

/-- Drops the marks of a document's end. -/
def documentEnds : Nat → Compose Unit
  | 0 => return
  | n + 1 => do
    if ← accept .documentEnd then documentEnds n

/-- A version whose first number is one. -/
def isKnownVersion (version : String) : Bool :=
  match version.splitOn "." with
  | [major, minor] =>
    major.toNat? = some 1 && !minor.isEmpty && (major ++ minor).all Char.isDigit
  | _ => false

/-- Drops the directives of a document. At most one gives a version, and it has to
be known. -/
def directives (versionSeen : Bool) : Nat → Compose Bool
  | 0 => return false
  | n + 1 => do
    match ← peek with
    | some (.directive words) =>
      drop
      match words with
      | ["YAML", version] =>
        if versionSeen || !isKnownVersion version then failure
        discard (directives true n)
      | "YAML" :: _ | [] => failure
      | _ => discard (directives versionSeen n)
      return true
    | _ => return false

/-- The one document of a stream; none if there is none. -/
def document (n : Nat) : Compose (Option Tree) := do
  let directed ← directives false n
  let marked ← accept .documentStart
  if directed && !marked then failure
  let tree ← match ← peek with
    | none => pure (if marked then some .absent else none)
    | some .documentEnd => if marked then pure (some .absent) else failure
    | some _ => some <$> node true false n
  documentEnds n
  if (← peek).isSome then failure
  return tree

end Compose

/-- The document that tokens make, if there is one; fails if they are malformed. -/
def Tree.ofTokens? (tokens : List Token) : Option (Option Tree) :=
  ((Compose.document (4 * tokens.length + 4)).run { tokens }).map Prod.fst

end Ember.Yaml

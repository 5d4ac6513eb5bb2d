import Ember.Yaml.Scalar

/-!
# Tokens

A YAML text as tokens in which the indentation has become brackets: a block
collection is opened where its first entry stands further right than what is
around it, and closed before the first thing further left. A scalar that a colon
follows on its line is a key, and has a token of its own in front.

`Layout` is the state between two tokens, and `tokens?` reads a whole text.
-/

namespace Ember.Yaml

/-- A token. -/
inductive Token where
  | directive (words : List String)
  | documentStart
  | documentEnd
  | openBlockSequence
  | openBlockMapping
  | closeBlock
  | openSequence
  | closeSequence
  | openMapping
  | closeMapping
  /-- The dash of a block sequence. -/
  | entry
  /-- The comma between two items. -/
  | comma
  | key
  | value
  | alias (name : String)
  | anchor (name : String)
  | tag (text : String)
  | scalar (isPlain : Bool) (text : String)
deriving DecidableEq, Repr

/-- The state between two tokens. -/
structure Layout where
  rest : Rest
  /-- The columns of the open block collections, innermost first. -/
  columns : List Nat := []
  /-- The number of open brackets. -/
  flow : Nat := 0
  /-- Whether a key, or a block collection, may start here. -/
  keyAllowed : Bool := true
deriving DecidableEq, Repr

/-- The longest key, up to its colon. -/
def maxKeyLength : Nat := 1024

namespace Layout

/-- Whether brackets are open. -/
def inFlow (l : Layout) : Bool :=
  l.flow ≠ 0

/-- The first column that is further right than the innermost block. -/
def inside (l : Layout) : Nat :=
  match l.columns with
  | [] => 0
  | column :: _ => column + 1

/-- Whether what stands here has to be a key: it is where the keys of the innermost
block stand. -/
def needsKey (l : Layout) : Bool :=
  l.keyAllowed && !l.inFlow && l.columns.head? = some l.rest.column

/-- Closes the blocks that a column is left of. -/
def closeTo (l : Layout) (column : Nat) : List Token × Layout :=
  if l.inFlow then ([], l)
  else
    let closed := l.columns.takeWhile (column < ·)
    (closed.map fun _ => .closeBlock, { l with columns := l.columns.drop closed.length })

/-- Closes all blocks. -/
def closeAll (l : Layout) : List Token × Layout :=
  (l.columns.map fun _ => .closeBlock, { l with columns := [] })

/-- Opens a block at a column that is further right than the innermost one. -/
def openAt (l : Layout) (column : Nat) (token : Token) : List Token × Layout :=
  if l.inFlow || column < l.inside then ([], l)
  else ([token], { l with columns := column :: l.columns })

/-- Goes to the next thing in the text. A key may start a line, except between
brackets. -/
def skipFiller (l : Layout) : Layout :=
  let (rest, endedLine) := Rest.skipFiller false false l.rest.column l.rest.chars
  { l with rest, keyAllowed := l.keyAllowed || (endedLine && !l.inFlow) }

/-! ## Names and properties -/

/-- A character of an anchor's name. -/
def isNameChar (c : Char) : Bool :=
  c.isAlphanum || c = '-' || c = '_'

/-- The name of an anchor or alias from its mark, and the place behind it. -/
def readName (r : Rest) : Option (String × Rest) :=
  let name := (r.chars.drop 1).takeWhile isNameChar
  let behind := r.skip (1 + name.length)
  let ended := match behind.next? with
    | none => true
    | some c => isSpacing c || c ∈ ['?', ':', ',', ']', '\x7d', '%', '@', '\x60']
  if name.isEmpty || !ended then none else some (String.ofList name, behind)

/-- A tag from its mark, and the place behind it. -/
def readTag (r : Rest) : Option (String × Rest) :=
  let tag := r.chars.takeWhile fun c => !isSpacing c
  let behind := r.skip tag.length
  if behind.next? = some '\t' then none else some (String.ofList tag, behind)

/-- Anchors and tags that stand here, one behind the other on a line, and the place
behind them. -/
def readProperties (r : Rest) : Nat → Option (List Token × Rest)
  | 0 => some ([], r)
  | n + 1 => do
    let property ← match r.next? with
      | some '&' => (readName r).map fun (name, r) => some (Token.anchor name, r)
      | some '!' => (readTag r).map fun (tag, r) => some (Token.tag tag, r)
      | _ => some none
    match property with
    | none => return ([], r)
    | some (token, r) =>
      let next := r.skipWhile (· = ' ')
      if next.next? = some '&' ∨ next.next? = some '!' then
        let (tokens, r) ← readProperties next n
        return (token :: tokens, r)
      else return ([token], r)

/-! ## Scalars and keys -/

/-- The scalar or alias that stands here, if one does, and the place behind it. -/
def readContent (l : Layout) (r : Rest) : Option (Option (Token × Rest)) :=
  match r.next? with
  | some '*' => (readName r).map fun (name, r) => some (.alias name, r)
  | some '\'' => (readQuoted '\'' r).map fun (cs, r) => some (.scalar false (String.ofList cs), r)
  | some '"' => (readQuoted '"' r).map fun (cs, r) => some (.scalar false (String.ofList cs), r)
  | _ =>
    if startsPlain l.inFlow r ∧ ¬r.atMarker then
      let (cs, r) := readPlain l.inFlow l.inside r
      some (some (.scalar true (String.ofList cs), r))
    else some none

/-- Whether a colon that gives a key its value stands here. -/
def atValue (l : Layout) (r : Rest) : Bool :=
  match r.chars with
  | ':' :: cs => l.inFlow || separates cs.head?
  | _ => false

/-- Whether what was read from `start` up to `stop` is a key: it is on one line, not
too long, and a colon follows. -/
def isKey (l : Layout) (start stop : Rest) : Bool :=
  let read := start.chars.take (start.chars.length - stop.chars.length)
  let colon := stop.skipWhile (· = ' ')
  l.keyAllowed && !read.any isBreak && l.atValue colon &&
    start.chars.length - colon.chars.length ≤ maxKeyLength

/-- Reads properties and a scalar, or one of the two, with the token of a key in
front if they are one. -/
def readNode (l : Layout) : Option (List Token × Layout) := do
  let start := l.rest
  let (properties, r) ← readProperties start start.chars.length
  let next := if properties.isEmpty then r else r.skipWhile (· = ' ')
  let (tokens, stop) := match ← l.readContent next with
    | some (token, stop) => (properties ++ [token], stop)
    | none => (properties, r)
  if tokens.isEmpty then none
  let isKey := l.isKey start stop
  if l.needsKey && !isKey then none
  let (opened, l) := if isKey then l.openAt start.column .openBlockMapping else ([], l)
  return (opened ++ (if isKey then [.key] else []) ++ tokens,
    { l with rest := stop, keyAllowed := false })

/-! ## Steps -/

/-- The layout behind `n` characters of the line. -/
def past (l : Layout) (n : Nat) (keyAllowed : Bool) : Layout :=
  { l with rest := l.rest.skip n, keyAllowed }

/-- The words of a directive, without a comment. -/
def directiveWords (line : List Char) : List String :=
  let words := (String.ofList line).splitOn " " |>.filter (· ≠ "")
  words.takeWhile fun word => !word.startsWith "#"

/-- A mark that opens a block, such as a dash. -/
def blockMark (l : Layout) (opening mark : Token) : Option (List Token × Layout) :=
  if l.inFlow then none
  else if l.keyAllowed then
    let (opened, l) := l.openAt l.rest.column opening
    some (opened ++ [mark], l.past 1 true)
  else none

/-- A bracket that opens. Nothing may hang on whether it begins a key, since a
collection is no key. -/
def openBracket (l : Layout) (token : Token) : Option (List Token × Layout) :=
  if l.needsKey then none
  else some ([token], { l.past 1 true with flow := l.flow + 1 })

/-- A bracket that closes. -/
def closeBracket (l : Layout) (token : Token) : Option (List Token × Layout) :=
  if l.inFlow then some ([token], { l.past 1 false with flow := l.flow - 1 }) else none

/-- Reads the tokens at a place that is not the end of the text. -/
def step (l : Layout) : Option (List Token × Layout) :=
  let r := l.rest
  if r.atMarker then
    let (closed, l) := l.closeAll
    let token := if r.next? = some '-' then Token.documentStart else .documentEnd
    some (closed ++ [token], l.past 3 false)
  else if r.column = 0 ∧ r.next? = some '%' then
    let (closed, l) := l.closeAll
    let line := (r.chars.drop 1).takeWhile (!isBreak ·)
    some (closed ++ [.directive (directiveWords line)], l.past (1 + line.length) false)
  else
    match r.chars with
    | [] => none
    | '[' :: _ => l.openBracket .openSequence
    | '\x7b' :: _ => l.openBracket .openMapping
    | ']' :: _ => l.closeBracket .closeSequence
    | '\x7d' :: _ => l.closeBracket .closeMapping
    | ',' :: _ => if l.inFlow then some ([.comma], l.past 1 true) else none
    | c :: cs =>
      if c = '-' ∧ separates cs.head? then l.blockMark .openBlockSequence .entry
      else if c = '?' ∧ (l.inFlow ∨ separates cs.head?) then
        if l.inFlow then some ([.key], l.past 1 false) else l.blockMark .openBlockMapping .key
      else if l.atValue r then
        if l.inFlow then some ([.value], l.past 1 false)
        else if l.keyAllowed then l.blockMark .openBlockMapping .value
        else some ([.value], l.past 1 false)
      else if (c = '|' ∨ c = '>') ∧ ¬l.inFlow then do
        let (cs, rest) ← readBlock (c = '>') l.inside r
        return ([.scalar false (String.ofList cs)], { l with rest, keyAllowed := true })
      else l.readNode

/-- The tokens from a place on. -/
def collect (l : Layout) : Nat → Option (List Token)
  | 0 => none
  | n + 1 =>
    let l := l.skipFiller
    if l.rest.chars.isEmpty then some l.closeAll.1
    else do
      let (closed, l) := l.closeTo l.rest.column
      let (read, l) ← l.step
      return closed ++ read ++ (← l.collect n)

end Layout

/-- A text without a mark of its byte order in front. -/
def withoutMark : List Char → List Char
  | '\ufeff' :: cs => cs
  | cs => cs

/-- The tokens of a text; none if it is malformed. -/
def tokens? (text : String) : Option (List Token) :=
  let cs := text.toList
  if cs.all isAllowed then
    let cs := withoutMark cs
    ({ rest := { chars := cs } } : Layout).collect (cs.length + 1)
  else none

end Ember.Yaml

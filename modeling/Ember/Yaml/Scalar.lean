import Ember.Yaml.Rest

/-!
# Scalars

The three ways to write a text in YAML: plain, between quotes, and as a block of
lines. Each reader takes the place where the scalar starts and returns its text
with the place behind it; `none` says that the text is malformed.
-/

namespace Ember.Yaml

/-! ## Plain scalars -/

/-- Whether a colon in front of the given character ends a plain scalar. -/
def colonEndsPlain (inFlow : Bool) (after : Option Char) : Bool :=
  separates after ||
    (inFlow && (match after with
      | some c => c ∈ [',', '[', ']', '\x7b', '\x7d']
      | none => true))

/-- The characters of a plain scalar up to the next spacing. -/
def plainChunk (inFlow : Bool) : List Char → List Char
  | [] => []
  | c :: cs =>
    if isSpacing c || (c = ':' && colonEndsPlain inFlow cs.head?) ||
        (inFlow && c ∈ [',', '?', '[', ']', '\x7b', '\x7d']) then []
    else c :: plainChunk inFlow cs

/-- The spacing behind a chunk: what it leaves in the scalar, and the place behind
it. Nothing if the scalar ends there. -/
def plainSpacing (r : Rest) : Option (List Char × Rest) :=
  let spaces := r.chars.takeWhile (· = ' ')
  let r := r.skip spaces.length
  match r.chars with
  | c :: cs =>
    if isBreak c then
      (Rest.moreBreaks 0 cs).map fun (breaks, r) => (foldBreaks c breaks, r)
    else if spaces.isEmpty then none
    else some (spaces, r)
  | [] => if spaces.isEmpty then none else some (spaces, r)

/-- A plain scalar from a place where a chunk may start, with `pending` spacing
before it; `last` is the place behind the chunk before. Lines that go on must
stand at `indent` or further right. -/
def plainFrom (inFlow : Bool) (indent : Nat) (pending : List Char) (r last : Rest) :
    Nat → List Char × Rest
  | 0 => ([], last)
  | n + 1 =>
    let chunk := if r.next? = some '#' then [] else plainChunk inFlow r.chars
    if chunk.isEmpty then ([], last)
    else
      let last := r.skip chunk.length
      match plainSpacing last with
      | none => (pending ++ chunk, last)
      | some (spacing, r) =>
        if !inFlow && r.column < indent then (pending ++ chunk, last)
        else
          let (more, last) := plainFrom inFlow indent spacing r last n
          (pending ++ chunk ++ more, last)

/-- Reads a plain scalar. -/
def readPlain (inFlow : Bool) (indent : Nat) (r : Rest) : List Char × Rest :=
  plainFrom inFlow indent [] r r (r.chars.length + 1)

/-- The characters that begin something else than a plain scalar. -/
def indicators : List Char :=
  [',', '[', ']', '\x7b', '\x7d', '#', '&', '*', '!', '|', '>', '\'', '"', '%', '@', '\x60']

/-- Whether a plain scalar can start here. -/
def startsPlain (inFlow : Bool) (r : Rest) : Bool :=
  match r.chars with
  | [] => false
  | c :: cs =>
    if c ∈ ['-', '?', ':'] then
      !separates cs.head? && (c = '-' || !inFlow)
    else
      !isSpacing c && !indicators.contains c

/-! ## Quoted scalars -/

/-- The escapes of one character. -/
def simpleEscape? : Char → Option Char
  | '0' => some '\x00'
  | 'a' => some '\x07'
  | 'b' => some '\x08'
  | 't' | '\t' => some '\t'
  | 'n' => some '\n'
  | 'v' => some '\x0b'
  | 'f' => some '\x0c'
  | 'r' => some '\r'
  | 'e' => some '\x1b'
  | ' ' => some ' '
  | '"' => some '"'
  | '\\' => some '\\'
  | '/' => some '/'
  | 'N' => some '\x85'
  | '_' => some '\xa0'
  | 'L' => some '\u2028'
  | 'P' => some '\u2029'
  | _ => none

/-- The number of digits of the escapes by code point. -/
def escapeDigits? : Char → Option Nat
  | 'x' => some 2
  | 'u' => some 4
  | 'U' => some 8
  | _ => none

/-- The value of a digit to the base sixteen. -/
def hexValue? (c : Char) : Option Nat :=
  if '0' ≤ c ∧ c ≤ '9' then some (c.toNat - '0'.toNat)
  else if 'a' ≤ c ∧ c ≤ 'f' then some (c.toNat - 'a'.toNat + 10)
  else if 'A' ≤ c ∧ c ≤ 'F' then some (c.toNat - 'A'.toNat + 10)
  else none

/-- The value of digits to the base sixteen. -/
def hexDigitsValue? (cs : List Char) : Option Nat :=
  cs.foldlM (fun value c => (hexValue? c).map (16 * value + ·)) 0

/-- An escape, from behind its backslash: what it stands for and the place behind. -/
def readEscape (r : Rest) : Option (List Char × Rest) :=
  match r.chars with
  | [] => none
  | c :: cs =>
    if isBreak c then Rest.moreQuotedBreaks 0 cs
    else
      match simpleEscape? c, escapeDigits? c with
      | some value, _ => some ([value], r.skip 1)
      | none, some count => do
        let digits := cs.take count
        if digits.length = count then
          return ([Char.ofNat (← hexDigitsValue? digits)], r.skip (count + 1))
        else none
      | none, none => none

/-- Spacing inside quotes: what it leaves and the place behind it. -/
def quotedSpacing (r : Rest) : Option (List Char × Rest) :=
  let spaces := r.chars.takeWhile fun c => c = ' ' || c = '\t'
  let r := r.skip spaces.length
  match r.chars with
  | [] => none
  | c :: cs =>
    if isBreak c then
      (Rest.moreQuotedBreaks 0 cs).map fun (breaks, r) => (foldBreaks c breaks, r)
    else some (spaces, r)

/-- What stands between quotes up to the closing one, and the place behind that. -/
def quotedFrom (quote : Char) (r : Rest) : Nat → Option (List Char × Rest)
  | 0 => none
  | n + 1 =>
    match r.chars with
    | [] => none
    | c :: cs => do
      if c = quote ∧ ¬(quote = '\'' ∧ cs.head? = some '\'') then return ([], r.skip 1)
      let (value, r) ←
        if c = quote then some ([quote], r.skip 2)
        else if isSpacing c then quotedSpacing r
        else if c = '\\' ∧ quote = '"' then readEscape (r.skip 1)
        else some ([c], r.skip 1)
      let (more, r) ← quotedFrom quote r n
      return (value ++ more, r)

/-- Reads a quoted scalar from its opening quote. -/
def readQuoted (quote : Char) (r : Rest) : Option (List Char × Rest) :=
  quotedFrom quote (r.skip 1) r.chars.length

/-! ## Block scalars -/

/-- What becomes of the breaks at the end of a block. -/
inductive Chomping where
  /-- One of them remains. -/
  | clip
  /-- None remains. -/
  | strip
  /-- All remain. -/
  | keep
deriving DecidableEq, Repr

/-- The sign that tells what becomes of the breaks. -/
def chomping? : Char → Option Chomping
  | '+' => some .keep
  | '-' => some .strip
  | _ => none

/-- The digit that tells how far a block is indented. -/
def increment? (c : Char) : Option Nat :=
  if '1' ≤ c ∧ c ≤ '9' then some (c.toNat - '0'.toNat) else none

/-- The signs behind the mark of a block scalar, in either order. -/
def blockHeader (r : Rest) : Chomping × Option Nat × Rest :=
  match r.chars with
  | [] => (.clip, none, r)
  | c :: cs =>
    match chomping? c, increment? c with
    | some chomping, _ =>
      match cs.head?.bind increment? with
      | some increment => (chomping, some increment, r.skip 2)
      | none => (chomping, none, r.skip 1)
    | none, some increment =>
      match cs.head?.bind chomping? with
      | some chomping => (chomping, some increment, r.skip 2)
      | none => (.clip, some increment, r.skip 1)
    | none, none => (.clip, none, r)

/-- The rest of the line of a block's header: spaces and a comment. -/
def restOfHeader (r : Rest) : Option Rest :=
  let r' := r.skipWhile (· = ' ')
  let r'' := if r'.next? = some '#' then r'.skipWhile (!isBreak ·) else r'
  match r''.chars with
  | [] => some r''
  | c :: cs => if isBreak c then some { chars := cs, column := 0 } else none

/-- Spaces up to `indent` and empty lines, with the breaks of those. -/
def blockBreaks (indent column : Nat) : List Char → List Char × Rest
  | [] => ([], { chars := [], column })
  | c :: cs =>
    if c = ' ' ∧ column < indent then blockBreaks indent (column + 1) cs
    else if isBreak c then
      let (breaks, r) := blockBreaks indent 0 cs
      (breakValue c :: breaks, r)
    else ([], { chars := c :: cs, column })

/-- Spaces and empty lines before the first line of a block: their breaks, the
furthest column reached, and the place behind. -/
def blockStart (column furthest : Nat) : List Char → List Char × Nat × Rest
  | [] => ([], furthest, { chars := [], column })
  | c :: cs =>
    if c = ' ' then blockStart (column + 1) (max furthest (column + 1)) cs
    else if isBreak c then
      let (breaks, furthest, r) := blockStart 0 furthest cs
      (breakValue c :: breaks, furthest, r)
    else ([], furthest, { chars := c :: cs, column })

/-- What joins a line of a block to the next one. -/
def blockJoin (folded indented : Bool) (lineBreak : List Char) (breaks : List Char) (after : Rest) :
    List Char :=
  let nextIndented := match after.next? with
    | some c => c = ' ' || c = '\t'
    | none => false
  if folded && lineBreak = ['\n'] && !indented && !nextIndented then
    if breaks.isEmpty then [' '] else []
  else lineBreak

/-- The lines of a block, from a place behind `breaks`. The result has the text
without its end, the last break, the breaks behind it, and the place behind all. -/
def blockLines (folded : Bool) (indent : Nat) (breaks lineBreak : List Char) (r : Rest) :
    Nat → List Char × List Char × List Char × Rest
  | 0 => ([], lineBreak, breaks, r)
  | n + 1 =>
    if r.column ≠ indent ∨ r.chars.isEmpty then ([], lineBreak, breaks, r)
    else
      let indented := match r.next? with
        | some c => c = ' ' || c = '\t'
        | none => false
      let line := r.chars.takeWhile (!isBreak ·)
      let behind := r.skip line.length
      let (lineBreak, start) : List Char × Rest := match behind.chars with
        | [] => ([], behind)
        | c :: cs => ([breakValue c], { chars := cs, column := 0 })
      let (more, after) := blockBreaks indent start.column start.chars
      if after.column = indent ∧ ¬after.chars.isEmpty then
        let (text, last, trailing, stop) := blockLines folded indent more lineBreak after n
        (breaks ++ line ++ blockJoin folded indented lineBreak more after ++ text,
          last, trailing, stop)
      else (breaks ++ line, lineBreak, more, after)

/-- Reads a block scalar from its mark. Its lines stand at `least` or further
right. -/
def readBlock (folded : Bool) (least : Nat) (r : Rest) : Option (List Char × Rest) := do
  let (chomping, increment, r) := blockHeader (r.skip 1)
  if !(match r.next? with
    | none => true
    | some c => c = ' ' || isBreak c) then none
  let r ← restOfHeader r
  let least := max 1 least
  let (breaks, indent, r) := match increment with
    | some increment =>
      let indent := least + increment - 1
      let (breaks, r) := blockBreaks indent r.column r.chars
      (breaks, indent, r)
    | none =>
      let (breaks, furthest, r) := blockStart r.column 0 r.chars
      (breaks, max least furthest, r)
  let (text, lineBreak, trailing, r) := blockLines folded indent breaks [] r (r.chars.length + 1)
  let ending := match chomping with
    | .clip => lineBreak
    | .strip => []
    | .keep => lineBreak ++ trailing
  return (text ++ ending, r)

end Ember.Yaml

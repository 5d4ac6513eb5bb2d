import Ember.Text.Quoted

/-!
# Text from bytes

Bytes are read as UTF-8, one byte after the other, with the character that is
begun kept beside them. The first byte that fits nowhere ends the reading; what
is said about it names the bytes that make no character. Line ends of any
convention become line feeds.
-/

namespace Ember.Text

/-- Why bytes make no character. -/
inductive Utf8Cause where
  | invalidStart
  | invalidContinuation
  | unexpectedEnd
deriving DecidableEq, Repr

/-- The wording of a cause. -/
def Utf8Cause.message : Utf8Cause → String
  | invalidStart => "invalid start byte"
  | invalidContinuation => "invalid continuation byte"
  | unexpectedEnd => "unexpected end of data"

/-- Bytes that make no character: the first of them, where it stands, and how many
they are. -/
structure Utf8Error where
  first : UInt8
  position : Nat
  length : Nat
  cause : Utf8Cause
deriving DecidableEq, Repr

/-- What is said about bytes that make no character. -/
def Utf8Error.message (e : Utf8Error) : String :=
  let place :=
    if e.length = 1 then
      "byte 0x" ++ String.ofList (hexDigits 2 e.first.toNat) ++ " in position " ++
        toString e.position
    else
      "bytes in position " ++ toString e.position ++ "-" ++ toString (e.position + e.length - 1)
  "'utf-8' codec can't decode " ++ place ++ ": " ++ e.cause.message

/-- A character that is begun: its first byte and where it stands, the bytes taken
so far with the value they give, how many are missing, and the bounds of the next
one. -/
structure Utf8Begun where
  first : UInt8
  position : Nat
  taken : Nat
  value : Nat
  missing : Nat
  low : Nat
  high : Nat
deriving DecidableEq, Repr

namespace Utf8Begun

/-- A character of `1 + missing` bytes, begun with `first`. The bounds of the
second byte keep out longer forms than needed, surrogates and numbers beyond the
last character. -/
def ofLead? (first : UInt8) (position : Nat) : Option Utf8Begun :=
  let b := first.toNat
  let begin (value missing low high : Nat) : Option Utf8Begun :=
    some { first, position, taken := 1, value, missing, low, high }
  if b < 0xc2 then none
  else if b < 0xe0 then begin (b - 0xc0) 1 0x80 0xbf
  else if b < 0xf0 then
    begin (b - 0xe0) 2 (if b = 0xe0 then 0xa0 else 0x80) (if b = 0xed then 0x9f else 0xbf)
  else if b < 0xf5 then
    begin (b - 0xf0) 3 (if b = 0xf0 then 0x90 else 0x80) (if b = 0xf4 then 0x8f else 0xbf)
  else none

/-- The error of a begun character that does not go on. -/
def error (p : Utf8Begun) (cause : Utf8Cause) : Utf8Error :=
  { first := p.first, position := p.position, length := p.taken, cause }

/-- The begun character with one byte more. -/
def extend (p : Utf8Begun) (b : UInt8) : Utf8Begun :=
  { p with
    taken := p.taken + 1
    value := 64 * p.value + b.toNat % 64
    missing := p.missing - 1
    low := 0x80
    high := 0xbf }

end Utf8Begun

/-- The characters of bytes from a position on, behind the reverse of `found`. -/
def decodeFrom (position : Nat) (begun : Option Utf8Begun) (found : List Char) :
    List UInt8 → Except Utf8Error (List Char)
  | [] =>
    match begun with
    | none => .ok found.reverse
    | some p => .error (p.error .unexpectedEnd)
  | b :: bytes =>
    match begun with
    | none =>
      if b < 0x80 then decodeFrom (position + 1) none (Char.ofNat b.toNat :: found) bytes
      else
        match Utf8Begun.ofLead? b position with
        | some p => decodeFrom (position + 1) (some p) found bytes
        | none => .error { first := b, position, length := 1, cause := .invalidStart }
    | some p =>
      if p.low ≤ b.toNat ∧ b.toNat ≤ p.high then
        let p := p.extend b
        if p.missing = 0 then decodeFrom (position + 1) none (Char.ofNat p.value :: found) bytes
        else decodeFrom (position + 1) (some p) found bytes
      else .error (p.error .invalidContinuation)

/-- Every line end as a line feed. -/
def unifyLineEnds : List Char → List Char
  | [] => []
  | '\r' :: '\n' :: cs => '\n' :: unifyLineEnds cs
  | c :: cs => (if c = '\r' then '\n' else c) :: unifyLineEnds cs

/-- The text of bytes, with every line end as a line feed. -/
def ofBytes (bytes : List UInt8) : Except Utf8Error String :=
  (decodeFrom 0 none [] bytes).map fun cs => String.ofList (unifyLineEnds cs)

/-- A text with every line end as a line feed. -/
def withLineFeeds (s : String) : String :=
  String.ofList (unifyLineEnds s.toList)

end Ember.Text

import Mathlib.Data.Nat.Digits.Defs
import Ember.Text.Quoted
import Ember.Yaml.Scalar

/-!
# Quoted text is read back

What a character is written as tells the character and where the next one starts
(`readChar_quoteChar`), and nothing that a character is written as starts with the quote. So a
quoted text is that of one text only (`quoted_inj`). It stands on one line, whatever the text
holds (`newline_notMem_quoted`).
-/

namespace Ember.Text

open Yaml (escapeDigits? hexValue? hexDigitsValue? simpleEscape?)

/-! ## Hexadecimal digits -/

theorem hexValue?_digitChar : ∀ d < 16, hexValue? d.digitChar = some d := by
  decide

/-- Digits in a row are read one after the other. -/
theorem hexDigitsValue?_append (cs ds : List Char) : hexDigitsValue? (cs ++ ds) =
    (hexDigitsValue? cs).bind fun value =>
      ds.foldlM (fun value c => (hexValue? c).map (16 * value + ·)) value :=
  List.foldlM_append

/-- What the digits of a number are worth is the number. -/
theorem hexDigitsValue?_toDigits (n : Nat) : hexDigitsValue? (Nat.toDigits 16 n) = some n := by
  induction n using Nat.strong_induction_on with
  | _ n ih =>
    rcases Nat.lt_or_ge n 16 with hlt | hge
    · rw [Nat.toDigits_of_lt_base hlt]
      simp [hexDigitsValue?, hexValue?_digitChar n hlt]
    · rw [Nat.toDigits_of_base_le (by decide) hge, hexDigitsValue?_append,
        ih (n / 16) (Nat.div_lt_self (by omega) (by decide))]
      simp [hexValue?_digitChar (n % 16) (Nat.mod_lt n (by decide)), Nat.div_add_mod]

/-- Leading zeros make no difference to the value. -/
theorem hexDigitsValue?_replicate (k : Nat) (cs : List Char) :
    hexDigitsValue? (List.replicate k '0' ++ cs) = hexDigitsValue? cs := by
  induction k with
  | zero => rfl
  | succ k ih => exact ih

/-- Hexadecimal digits are read back as their number. -/
theorem hexDigitsValue?_hexDigits (width n : Nat) :
    hexDigitsValue? (hexDigits width n) = some n := by
  rw [hexDigits, hexDigitsValue?_replicate, hexDigitsValue?_toDigits]

/-- A number that is not too large has as many digits as asked for. -/
theorem length_hexDigits {width n : Nat} (hwidth : 0 < width) (h : n < 16 ^ width) :
    (hexDigits width n).length = width := by
  have hle := Nat.toDigits_length 16 n width hwidth h
  rw [hexDigits, List.length_append, List.length_replicate]
  omega

/-- The digits of a number are digits. -/
theorem exists_digitChar_of_mem {n : Nat} {c : Char} (hc : c ∈ Nat.toDigits 16 n) :
    ∃ d, c = Nat.digitChar d := by
  induction n using Nat.strong_induction_on with
  | _ n ih =>
    rcases Nat.lt_or_ge n 16 with hlt | hge
    · rw [Nat.toDigits_of_lt_base hlt, List.mem_singleton] at hc
      exact ⟨n, hc⟩
    · rw [Nat.toDigits_of_base_le (by decide) hge, List.mem_append, List.mem_singleton] at hc
      rcases hc with hc | rfl
      · exact ih (n / 16) (Nat.div_lt_self (by omega) (by decide)) hc
      · exact ⟨n % 16, rfl⟩

theorem newline_notMem_hexDigits (width n : Nat) : '\n' ∉ hexDigits width n := by
  intro hmem
  rcases List.mem_append.1 hmem with hzero | hdigit
  · exact absurd (List.eq_of_mem_replicate hzero) (by decide)
  · obtain ⟨d, hd⟩ := exists_digitChar_of_mem hdigit
    exact Nat.digitChar_ne '\n' (by decide) hd.symm

/-! ## Reading characters -/

/-- Reads an escape, from behind its backslash: the character, and what is behind it. -/
def readEscape : List Char → Option (Char × List Char)
  | [] => none
  | c :: cs =>
    match escapeDigits? c with
    | some count => (hexDigitsValue? (cs.take count)).map fun n => (Char.ofNat n, cs.drop count)
    | none => some ((simpleEscape? c).getD c, cs)

/-- Reads a character of quoted text: the character, and what is behind it. -/
def readChar : List Char → Option (Char × List Char)
  | [] => none
  | c :: cs => if c = '\\' then readEscape cs else some (c, cs)

/-- A quote that texts are written with. -/
def IsQuote (q : Char) : Prop :=
  q = '\'' ∨ q = '"'

/-- The quote around a text is one of the two. -/
theorem isQuote_quoteOf (cs : List Char) : IsQuote (quoteOf cs) := by
  unfold quoteOf
  split
  · exact .inr rfl
  · exact .inl rfl

variable {q : Char}

/-- An escape by number is read back, whatever stands behind it. -/
theorem readEscape_hexDigits {e c : Char} {width : Nat} (he : escapeDigits? e = some width)
    (hwidth : 0 < width) (h : c.toNat < 16 ^ width) (rest : List Char) :
    readEscape (e :: (hexDigits width c.toNat ++ rest)) = some (c, rest) := by
  have hlength := length_hexDigits hwidth h
  simp only [readEscape, he, List.take_left' hlength, List.drop_left' hlength,
    hexDigitsValue?_hexDigits, Option.map_some, Char.ofNat_toNat]

/-- An escaped character is read back, whatever stands behind it. -/
theorem readChar_escapeCodePoint (c : Char) (rest : List Char) :
    readChar (escapeCodePoint c.toNat ++ rest) = some (c, rest) := by
  have hbound : c.toNat < 16 ^ 8 := c.val.toNat_lt
  unfold escapeCodePoint
  split
  next => exact readEscape_hexDigits (e := 'x') rfl (by decide) (by omega) rest
  next =>
    split
    · exact readEscape_hexDigits (e := 'u') rfl (by decide) (by omega) rest
    · exact readEscape_hexDigits (e := 'U') rfl (by decide) hbound rest

/-- What a character is written as is read as that character, whatever follows. -/
theorem readChar_quoteChar (hq : IsQuote q) (c : Char) (rest : List Char) :
    readChar (quoteChar q c ++ rest) = some (c, rest) := by
  unfold quoteChar
  split
  next hescaped =>
    rcases hescaped with rfl | rfl
    · rcases hq with rfl | rfl <;> rfl
    · rfl
  next hplain =>
    split
    next h => rw [h]; rfl
    split
    next h => rw [h]; rfl
    split
    next h => rw [h]; rfl
    split
    · exact if_neg fun h => hplain (.inr h)
    · exact readChar_escapeCodePoint c rest

/-- A quoted character tells the character and what stands behind it. -/
theorem quoteChar_append_inj (hq : IsQuote q) {c c' : Char} {rest rest' : List Char}
    (h : quoteChar q c ++ rest = quoteChar q c' ++ rest') : c = c' ∧ rest = rest' := by
  have hread := congrArg readChar h
  rwa [readChar_quoteChar hq, readChar_quoteChar hq, Option.some.injEq, Prod.mk.injEq] at hread

theorem exists_escapeCodePoint (n : Nat) : ∃ cs, escapeCodePoint n = '\\' :: cs := by
  unfold escapeCodePoint
  split
  · exact ⟨_, rfl⟩
  · split <;> exact ⟨_, rfl⟩

/-- A character is escaped, or stands for itself and is not the quote. -/
theorem quoteChar_cases (q c : Char) :
    (∃ cs, quoteChar q c = '\\' :: cs) ∨ quoteChar q c = [c] ∧ c ≠ q := by
  unfold quoteChar
  split
  · exact .inl ⟨_, rfl⟩
  next hplain =>
    split
    · exact .inl ⟨_, rfl⟩
    split
    · exact .inl ⟨_, rfl⟩
    split
    · exact .inl ⟨_, rfl⟩
    split
    · exact .inr ⟨rfl, fun h => hplain (.inl h)⟩
    · exact .inl (exists_escapeCodePoint c.toNat)

/-- What a character is written as does not start with the quote. -/
theorem quoteChar_append_ne (hq : IsQuote q) (c : Char) (rest rest' : List Char) :
    quoteChar q c ++ rest ≠ q :: rest' := by
  have hslash : '\\' ≠ q := by rcases hq with rfl | rfl <;> decide
  intro h
  rcases quoteChar_cases q c with ⟨cs, hcs⟩ | ⟨hself, hne⟩
  · rw [hcs] at h
    exact hslash (List.cons.inj h).1
  · rw [hself] at h
    exact hne (List.cons.inj h).1

/-! ## Quoted texts -/

/-- Characters in front of the closing quote are those of one text. -/
theorem flatMap_quoteChar_inj (hq : IsQuote q) {cs cs' : List Char}
    (h : cs.flatMap (quoteChar q) ++ [q] = cs'.flatMap (quoteChar q) ++ [q]) : cs = cs' := by
  induction cs generalizing cs' with
  | nil =>
    cases cs' with
    | nil => rfl
    | cons c' cs' =>
      rw [List.flatMap_cons, List.append_assoc] at h
      exact absurd h.symm (quoteChar_append_ne hq c' _ _)
  | cons c cs ih =>
    rw [List.flatMap_cons, List.append_assoc] at h
    cases cs' with
    | nil => exact absurd h (quoteChar_append_ne hq c _ _)
    | cons c' cs' =>
      rw [List.flatMap_cons, List.append_assoc] at h
      obtain ⟨rfl, hrest⟩ := quoteChar_append_inj hq h
      rw [ih hrest]

/-- **Quoted texts tell the texts.** -/
theorem quotedChars_injective {cs cs' : List Char} (h : quotedChars cs = quotedChars cs') :
    cs = cs' := by
  obtain ⟨hquote, hchars⟩ := List.cons.inj h
  rw [← hquote] at hchars
  exact flatMap_quoteChar_inj (isQuote_quoteOf cs) hchars

/-- **Quoted texts are told apart.** Two texts that are written alike in quotes are equal. -/
theorem quoted_inj {s t : String} : quoted s = quoted t ↔ s = t := by
  refine ⟨fun h => ?_, congrArg quoted⟩
  exact String.toList_inj.1 (quotedChars_injective (String.ofList_inj.1 h))

/-- No quoted character breaks the line. -/
theorem newline_notMem_quoteChar (hq : IsQuote q) (c : Char) : '\n' ∉ quoteChar q c := by
  have hne : '\n' ≠ q := by rcases hq with rfl | rfl <;> decide
  unfold quoteChar escapeCodePoint
  split
  next hescaped => rcases hescaped with rfl | rfl <;> simp [hne]
  next =>
    split
    · simp
    next hc =>
      repeat' split
      all_goals simp [newline_notMem_hexDigits, Ne.symm hc]

/-- A quoted text stands on one line. -/
theorem newline_notMem_quoted (s : String) : '\n' ∉ (quoted s).toList := by
  have hquote := isQuote_quoteOf s.toList
  have hne : '\n' ≠ quoteOf s.toList := by rcases hquote with h | h <;> rw [h] <;> decide
  simp [quoted, quotedChars, hne, newline_notMem_quoteChar hquote]

end Ember.Text

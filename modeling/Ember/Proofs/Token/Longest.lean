import Ember.Proofs.Token.Layout
import Ember.Proofs.Token.Places
import Mathlib.Tactic.ByContra

/-!
# The lexemes of a text

Where in a text a lexeme stands, and of which kind it is, can be told without scanning it: a
number and a word are runs of characters that nothing lengthens, an operator is spelled in one
way, and what is none of these stands alone (`IsLexeme`).

Scanning takes such a lexeme, as long as the text before it did not end in the middle of one
(`IsBreak.isLexeme`), and there is no other where it starts (`IsLexeme.eq_lexeme`).
-/

namespace Ember

open Text

/-! ## Runs of characters -/

/-- The characters of a text from one offset up to another. -/
def stretch (cs : List Char) (a b : Nat) : List Char :=
  (cs.take b).drop a

/-- From `a` up to `b` stands a character of `first`, and characters of `more` behind it. -/
structure IsRun (first more : Char → Bool) (cs : List Char) (a b : Nat) : Prop where
  lt : a < b
  le : b ≤ cs.length
  head : ∀ c ∈ cs[a]?, first c = true
  tail : ∀ i, a < i → i < b → ∀ c ∈ cs[i]?, more c = true

/-- From `a` up to `b` stands a run, and it is no part of a longer one. -/
structure IsLongestRun (first more : Char → Bool) (cs : List Char) (a b : Nat) : Prop
    extends IsRun first more cs a b where
  longest : ∀ a' b', a' ≤ a → b ≤ b' → IsRun first more cs a' b' → a' = a ∧ b' = b

/-- No run that ends at `a` could go on there. -/
def RunsEnd (first more : Char → Bool) (cs : List Char) (a : Nat) : Prop :=
  ∀ a', IsRun first more cs a' a → ∀ c ∈ cs[a]?, more c = false

variable {first more : Char → Bool} {cs ds : List Char} {a b : Nat} {c : Char}

theorem getElem?_of_drop (hcs : cs.drop a = c :: ds) : cs[a]? = some c := by
  have h := congrArg (·[0]?) hcs
  simpa using h

theorem getElem?_add_of_drop (hcs : cs.drop a = c :: ds) (i : Nat) : cs[a + 1 + i]? = ds[i]? := by
  have h := congrArg (·[i + 1]?) hcs
  simp only [List.getElem?_drop, List.getElem?_cons_succ] at h
  rw [← h]
  congr 1
  omega

/-- Behind a stretch the rest is left. -/
theorem drop_add_of_drop {es rest : List Char} (hcs : cs.drop a = es ++ rest) :
    cs.drop (a + es.length) = rest := by
  rw [← List.drop_drop, hcs, List.drop_left]

/-- What is ahead is the stretch from there on. -/
theorem stretch_of_drop (es : List Char) {rest : List Char} (hcs : cs.drop a = es ++ rest) :
    stretch cs a (a + es.length) = es := by
  rw [stretch, List.drop_take, Nat.add_sub_cancel_left, hcs, List.take_left]

/-- Behind a stretch comes the first of the rest. -/
theorem getElem?_length_of_drop (es : List Char) {rest : List Char}
    (hcs : cs.drop a = es ++ rest) : cs[a + es.length]? = rest.head? := by
  rw [← drop_add_of_drop hcs, List.head?_drop]

theorem getElem?_last_of_drop {es rest : List Char} (hcs : cs.drop a = es ++ rest)
    (hne : es ≠ []) : cs[a + es.length - 1]? = es.getLast? := by
  have hpos := List.length_pos_iff.2 hne
  have hindex : a + es.length - 1 = a + (es.length - 1) := by omega
  rw [hindex, ← List.getElem?_drop, hcs, List.getElem?_append_left (by omega),
    List.getLast?_eq_getElem?]

/-- A stretch ends inside the text. -/
theorem add_length_le_of_drop {es rest : List Char} (hcs : cs.drop a = es ++ rest)
    (ha : a ≤ cs.length) : a + es.length ≤ cs.length := by
  have h := congrArg List.length hcs
  rw [List.length_drop, List.length_append] at h
  omega

/-- A run ends as well wherever it is cut. -/
theorem IsRun.cut {b' : Nat} (h : IsRun first more cs a b) (hlt : a < b') (hle : b' ≤ b) :
    IsRun first more cs a b' :=
  ⟨hlt, Nat.le_trans hle h.le, h.head, fun i hai hib => h.tail i hai (Nat.lt_of_lt_of_le hib hle)⟩

/-- Every character of a run goes on with it. -/
theorem IsRun.all (h : IsRun first more cs a b) (hfirst : ∀ c, first c = true → more c = true)
    {i : Nat} (hai : a ≤ i) (hib : i < b) : ∀ c ∈ cs[i]?, more c = true := by
  intro c hc
  rcases Nat.eq_or_lt_of_le hai with rfl | hlt
  · exact hfirst c (h.head c hc)
  · exact h.tail i hlt hib c hc

theorem IsRun.exists_char (h : IsRun first more cs a b) {i : Nat} (hib : i < b) :
    ∃ c, cs[i]? = some c :=
  ⟨_, List.getElem?_eq_getElem (Nat.lt_of_lt_of_le hib h.le)⟩

/-- Characters that go on with the first one are a run. -/
theorem IsRun.of_drop {es rest : List Char} (hcs : cs.drop a = c :: (es ++ rest))
    (hc : first c = true) (hes : ∀ e ∈ es, more e = true) :
    IsRun first more cs a (a + (c :: es).length) := by
  have hlt : a < cs.length := (List.getElem?_eq_some_iff.1 (getElem?_of_drop hcs)).1
  refine ⟨by simp, add_length_le_of_drop hcs (Nat.le_of_lt hlt), ?_, ?_⟩
  · intro d hd
    rw [getElem?_of_drop hcs] at hd
    exact Option.some.inj hd ▸ hc
  · intro i hai hib d hd
    obtain ⟨j, rfl⟩ := Nat.exists_eq_add_of_le (show a + 1 ≤ i from hai)
    rw [List.length_cons] at hib
    rw [getElem?_add_of_drop hcs, List.getElem?_append_left (by omega)] at hd
    exact hes d (List.mem_of_getElem? hd)

/-- A run in front of something else is the longest, if no run before it could go on. -/
theorem IsLongestRun.of_drop {es rest : List Char} (hcs : cs.drop a = c :: (es ++ rest))
    (hfirst : ∀ c, first c = true → more c = true) (hc : first c = true)
    (hes : ∀ e ∈ es, more e = true) (hrest : Apart more rest) (hparted : RunsEnd first more cs a) :
    IsLongestRun first more cs a (a + (c :: es).length) := by
  have hrun := IsRun.of_drop hcs hc hes
  refine ⟨hrun, fun a' b' ha hb hlong => ⟨?_, ?_⟩⟩
  · -- a run that starts earlier would have gone on at `a`
    by_contra hne
    have hlt : a' < a := by omega
    have hno := hparted a' (hlong.cut hlt (by have := hrun.lt; omega)) c (getElem?_of_drop hcs)
    rw [hfirst c hc] at hno
    cases hno
  · -- a run that ends later would have gone on behind the last character
    by_contra hne
    have hlt : a + (c :: es).length < b' := by omega
    obtain ⟨d, hd⟩ := hlong.exists_char hlt
    have hmore : more d = true := hlong.tail _ (by have := hrun.lt; omega) hlt d hd
    rw [getElem?_length_of_drop (c :: es) hcs] at hd
    rw [hrest d hd] at hmore
    cases hmore

/-- What a longest run looks like from where it starts. -/
theorem IsLongestRun.exists_span (h : IsLongestRun first more cs a b) (hcs : cs.drop a = c :: ds) :
    first c = true ∧ ∃ es rest, ds = es ++ rest ∧ (∀ e ∈ es, more e = true) ∧ Apart more rest ∧
      b = a + (c :: es).length := by
  have hlt := h.lt
  have hle := h.le
  have hlen := congrArg List.length hcs
  rw [List.length_drop, List.length_cons] at hlen
  refine ⟨h.head c (getElem?_of_drop hcs), ds.take (b - (a + 1)), ds.drop (b - (a + 1)),
    (List.take_append_drop ..).symm, ?_, ?_, ?_⟩
  · intro e he
    obtain ⟨i, hi, rfl⟩ := List.mem_take_iff_getElem.1 he
    refine h.tail (a + 1 + i) (by omega) (by omega) _ ?_
    rw [getElem?_add_of_drop hcs]
    exact List.getElem?_eq_getElem _
  · intro d hd
    by_contra hmore
    rw [Bool.not_eq_false] at hmore
    rw [List.head?_drop, ← getElem?_add_of_drop hcs] at hd
    have hbound : a + 1 + (b - (a + 1)) = b := by omega
    rw [hbound] at hd
    -- one character more would be a run as well
    have hlonger : IsRun first more cs a (b + 1) := by
      refine ⟨by omega, (List.getElem?_eq_some_iff.1 hd).1, h.head, fun i hai hib e he => ?_⟩
      rcases Nat.lt_succ_iff_lt_or_eq.1 hib with hi | rfl
      · exact h.tail i hai hi e he
      · rw [hd] at he
        exact Option.some.inj he ▸ hmore
    have := (h.longest a (b + 1) (Nat.le_refl a) (by omega) hlonger).2
    omega
  · rw [List.length_cons, List.length_take]
    omega

/-! ## Lexemes -/

/-- The kinds of operators that end in an equals sign which belongs to them. -/
def Kind.extended : List Kind :=
  [.equal, .notEqual, .lessEqual, .greaterEqual]

/-- The kinds of operators that an equals sign extends. -/
def Kind.extensible : List Kind :=
  [.assign, .bang, .less, .greater]

/-- The kinds of the characters that always stand alone. -/
def Kind.lone : List Kind :=
  [.plus, .minus, .star, .slash, .comma, .semicolon, .leftParen, .rightParen, .leftBrace,
    .rightBrace]

/-- The kinds of the keywords. -/
def Kind.keywords : List Kind :=
  [.letWord, .functionWord, .ifWord, .elseWord, .forWord, .whileWord]

/-- A kind with only one spelling, and it is this one. -/
def Kind.SpelledAs (kind : Kind) (cs : List Char) : Prop :=
  kind.spelling? = some (String.ofList cs)

/-- From `a` up to `b` stands a lexeme of the kind. -/
inductive IsLexeme (cs : List Char) (a b : Nat) : Kind → Prop
  | integer : IsLongestRun isDigit isDigit cs a b → IsLexeme cs a b .integer
  | keyword {kind : Kind} : kind ∈ Kind.keywords → kind.SpelledAs (stretch cs a b) →
      IsLongestRun isLetter isWordChar cs a b → IsLexeme cs a b kind
  | identifier : (∀ kind ∈ Kind.keywords, ¬ kind.SpelledAs (stretch cs a b)) →
      IsLongestRun isLetter isWordChar cs a b → IsLexeme cs a b .identifier
  | extended {kind : Kind} : kind ∈ Kind.extended → kind.SpelledAs (stretch cs a b) →
      IsLexeme cs a b kind
  | extensible {kind : Kind} : kind ∈ Kind.extensible → kind.SpelledAs (stretch cs a b) →
      cs[b]? ≠ some '=' → IsLexeme cs a b kind
  | lone {kind : Kind} : kind ∈ Kind.lone → kind.SpelledAs (stretch cs a b) → IsLexeme cs a b kind
  /-- A character that no other lexeme starts with, and that is no blank. -/
  | illegal {c : Char} : stretch cs a b = [c] → isBlank c = false → isDigit c = false →
      isLetter c = false → (∀ kind ∈ Kind.extensible ++ Kind.lone, ¬ kind.SpelledAs [c]) →
      IsLexeme cs a b .illegal

/-! ### What the kinds are spelled with -/

variable {kind : Kind}

/-- A kind has one spelling. -/
theorem Kind.SpelledAs.eq (h : kind.SpelledAs cs) (h' : kind.SpelledAs ds) : cs = ds :=
  String.ofList_inj.1 (Option.some.inj (h.symm.trans h'))

theorem isLetter_not_blank (hc : isLetter c = true) : isBlank c = false := by
  refine Bool.eq_false_iff.2 fun hb => ?_
  rw [isBlank_not_letter hb] at hc
  cases hc

theorem isDigit_not_letter (hc : isDigit c = true) : isLetter c = false := by
  simp only [isDigit, Bool.and_eq_true, decide_eq_true_eq] at hc
  have hlow : 48 ≤ c.toNat := hc.1
  have hhigh : c.toNat ≤ 57 := hc.2
  have hlist : ∀ n ≤ 57, 48 ≤ n → (Char.ofNat n).isAlpha = false := by decide
  have halpha := hlist c.toNat hhigh hlow
  rw [Char.ofNat_toNat] at halpha
  rw [isLetter, if_pos (show c.toNat < 128 by omega), halpha]

theorem isLetter_not_digit (hc : isLetter c = true) : isDigit c = false := by
  refine Bool.eq_false_iff.2 fun hd => ?_
  rw [isDigit_not_letter hd] at hc
  cases hc

theorem isLetter_wordChar (hc : isLetter c = true) : isWordChar c = true := by
  rw [isWordChar, hc, Bool.true_or]

theorem isDigit_wordChar (hc : isDigit c = true) : isWordChar c = true := by
  rw [isWordChar, hc, Bool.or_true]

theorem isWordChar_eq_false (hd : isDigit c = false) (hl : isLetter c = false) :
    isWordChar c = false := by
  rw [isWordChar, hl, hd, Bool.or_false]

theorem isWordChar_not_digit (hc : isWordChar c = false) : isDigit c = false :=
  (Bool.or_eq_false_iff.1 hc).2

/-- A word that is spelled like a keyword is that keyword. -/
theorem Kind.ofWord_of_keyword (hkind : kind ∈ keywords) (h : kind.SpelledAs cs) :
    ofWord (String.ofList cs) = kind := by
  simp only [keywords, List.mem_cons, List.not_mem_nil, or_false] at hkind
  rcases hkind with rfl | rfl | rfl | rfl | rfl | rfl <;>
    exact (congrArg ofWord (Option.some.inj h)).symm

/-- A word that is spelled like no keyword is a name. -/
theorem Kind.ofWord_of_no_keyword (h : ∀ kind ∈ keywords, ¬ kind.SpelledAs cs) :
    ofWord (String.ofList cs) = .identifier := by
  unfold ofWord
  split
  · next he => exact absurd (congrArg some he.symm) (h .letWord (by decide))
  · next he => exact absurd (congrArg some he.symm) (h .functionWord (by decide))
  · next he => exact absurd (congrArg some he.symm) (h .ifWord (by decide))
  · next he => exact absurd (congrArg some he.symm) (h .elseWord (by decide))
  · next he => exact absurd (congrArg some he.symm) (h .forWord (by decide))
  · next he => exact absurd (congrArg some he.symm) (h .whileWord (by decide))
  · rfl

/-- A kind of two characters is spelled with an equals sign behind a mark. -/
theorem Kind.extended_spelled (hkind : kind ∈ extended) :
    ∃ c kinds, extensibleKinds c = some kinds ∧ kinds.2 = kind ∧ IsMark c ∧
      kind.SpelledAs [c, '='] := by
  simp only [extended, List.mem_cons, List.not_mem_nil, or_false] at hkind
  rcases hkind with rfl | rfl | rfl | rfl <;>
    exact ⟨_, _, rfl, rfl, ⟨by decide, by decide, by decide⟩, rfl⟩

/-- A kind that could be extended is spelled as its mark alone. -/
theorem Kind.extensible_spelled (hkind : kind ∈ extensible) :
    ∃ c kinds, extensibleKinds c = some kinds ∧ kinds.1 = kind ∧ IsMark c ∧
      kind.SpelledAs [c] := by
  simp only [extensible, List.mem_cons, List.not_mem_nil, or_false] at hkind
  rcases hkind with rfl | rfl | rfl | rfl <;>
    exact ⟨_, _, rfl, rfl, ⟨by decide, by decide, by decide⟩, rfl⟩

/-- A kind of its own is spelled as its mark. -/
theorem Kind.lone_spelled (hkind : kind ∈ lone) :
    ∃ c, extensibleKinds c = none ∧ singleKind c = kind ∧ IsMark c ∧ kind.SpelledAs [c] := by
  simp only [lone, List.mem_cons, List.not_mem_nil, or_false] at hkind
  rcases hkind with rfl | rfl | rfl | rfl | rfl | rfl | rfl | rfl | rfl | rfl <;>
    exact ⟨_, rfl, rfl, ⟨by decide, by decide, by decide⟩, rfl⟩

/-- A mark that can be extended has a kind without the equals sign and one with it. -/
theorem extensibleKinds_mem {kinds : Kind × Kind} (h : extensibleKinds c = some kinds) :
    kinds.1 ∈ Kind.extensible ∧ kinds.2 ∈ Kind.extended := by
  unfold extensibleKinds at h
  split at h <;> cases h <;> decide

/-- A character alone is illegal or the spelling of its kind. -/
theorem singleKind_eq_illegal_or (c : Char) :
    singleKind c = .illegal ∨ singleKind c ∈ Kind.lone ∧ (singleKind c).SpelledAs [c] := by
  unfold singleKind
  split
  case h_11 => exact .inl rfl
  all_goals exact .inr ⟨by decide, rfl⟩

/-- A character of no kind spells no operator. -/
theorem not_spelled_of_illegal (hx : extensibleKinds c = none) (hill : singleKind c = .illegal) :
    ∀ kind ∈ Kind.extensible ++ Kind.lone, ¬ kind.SpelledAs [c] := by
  intro kind hkind hspelled
  rcases List.mem_append.1 hkind with hmem | hmem
  · obtain ⟨x, kinds, hx', -, -, hspelled'⟩ := Kind.extensible_spelled hmem
    obtain rfl : c = x := List.singleton_inj.1 (hspelled.eq hspelled')
    rw [hx'] at hx
    cases hx
  · obtain ⟨x, -, rfl, -, hspelled'⟩ := Kind.lone_spelled hmem
    obtain rfl : c = x := List.singleton_inj.1 (hspelled.eq hspelled')
    rw [hill] at hmem
    exact absurd hmem (by decide)

/-- A character that spells no operator is of no kind. -/
theorem illegal_of_not_spelled (hno : ∀ kind ∈ Kind.extensible ++ Kind.lone, ¬ kind.SpelledAs [c]) :
    extensibleKinds c = none ∧ singleKind c = .illegal := by
  constructor
  · cases hx : extensibleKinds c with
    | none => rfl
    | some kinds =>
      have hmem := List.mem_append_left Kind.lone (extensibleKinds_mem hx).1
      exact absurd (extensibleKinds_spelling hx).1 (hno _ hmem)
  · rcases singleKind_eq_illegal_or c with hill | ⟨hmem, hspelled⟩
    · exact hill
    · exact absurd hspelled (hno _ (List.mem_append_right _ hmem))

/-! ### Where a lexeme starts -/

/-- A stretch of a text is ahead where it starts. -/
theorem exists_of_stretch {es : List Char} (h : stretch cs a b = es) (hne : es ≠ [])
    (hb : b ≤ cs.length) : b = a + es.length ∧ ∃ rest, cs.drop a = es ++ rest := by
  have htake : (cs.drop a).take (b - a) = es := by
    rw [← h, stretch, List.drop_take]
  have hlength := congrArg List.length htake
  have hpos := List.length_pos_iff.2 hne
  rw [List.length_take, List.length_drop] at hlength
  refine ⟨by omega, (cs.drop a).drop (b - a), ?_⟩
  rw [← htake, List.take_append_drop]

/-- **A lexeme is what scanning takes there**: the kind and the end of a lexeme are determined
by the place where it starts. -/
theorem IsLexeme.eq_lexeme (h : IsLexeme cs a b kind) (hb : b ≤ cs.length)
    (hcs : cs.drop a = c :: ds) :
    isBlank c = false ∧ (lexeme c ds).kind = kind ∧ b = a + (lexeme c ds).text.length := by
  cases h with
  | integer hrun =>
    obtain ⟨hc, es, rest, rfl, hes, hrest, rfl⟩ := hrun.exists_span hcs
    rw [lexeme_digits hc hes hrest]
    exact ⟨isDigit_not_blank hc, rfl, rfl⟩
  | keyword hkind hspelled hrun =>
    obtain ⟨hc, es, rest, rfl, hes, hrest, rfl⟩ := hrun.exists_span hcs
    rw [stretch_of_drop (c :: es) hcs] at hspelled
    rw [lexeme_word (isLetter_not_digit hc) hc hes hrest]
    exact ⟨isLetter_not_blank hc, Kind.ofWord_of_keyword hkind hspelled, rfl⟩
  | identifier hspelled hrun =>
    obtain ⟨hc, es, rest, rfl, hes, hrest, rfl⟩ := hrun.exists_span hcs
    rw [stretch_of_drop (c :: es) hcs] at hspelled
    rw [lexeme_word (isLetter_not_digit hc) hc hes hrest]
    exact ⟨isLetter_not_blank hc, Kind.ofWord_of_no_keyword hspelled, rfl⟩
  | extended hkind hspelled =>
    obtain ⟨x, kinds, hx, rfl, hmark, hspelled'⟩ := Kind.extended_spelled hkind
    obtain ⟨rfl, rest, hrest⟩ := exists_of_stretch (hspelled.eq hspelled') (by simp) hb
    obtain ⟨rfl, rfl⟩ : c = x ∧ ds = '=' :: rest := by simpa [hcs] using hrest
    rw [lexeme_extended hmark.digit hmark.letter hx]
    exact ⟨hmark.blank, rfl, rfl⟩
  | extensible hkind hspelled hnot =>
    obtain ⟨x, kinds, hx, rfl, hmark, hspelled'⟩ := Kind.extensible_spelled hkind
    obtain ⟨rfl, rest, hrest⟩ := exists_of_stretch (hspelled.eq hspelled') (by simp) hb
    obtain ⟨rfl, rfl⟩ : c = x ∧ ds = rest := by simpa [hcs] using hrest
    rw [getElem?_length_of_drop [c] hcs] at hnot
    rw [lexeme_alone hmark.digit hmark.letter hx (apart_equals hnot)]
    exact ⟨hmark.blank, rfl, rfl⟩
  | lone hkind hspelled =>
    obtain ⟨x, hx, rfl, hmark, hspelled'⟩ := Kind.lone_spelled hkind
    obtain ⟨rfl, rest, hrest⟩ := exists_of_stretch (hspelled.eq hspelled') (by simp) hb
    obtain ⟨rfl, rfl⟩ : c = x ∧ ds = rest := by simpa [hcs] using hrest
    rw [lexeme_single hmark.digit hmark.letter hx]
    exact ⟨hmark.blank, rfl, rfl⟩
  | illegal hstretch hblank hd hl hno =>
    obtain ⟨rfl, rest, hrest⟩ := exists_of_stretch hstretch (by simp) hb
    obtain ⟨rfl, rfl⟩ : c = _ ∧ ds = rest := by simpa [hcs] using hrest
    obtain ⟨hx, hill⟩ := illegal_of_not_spelled hno
    rw [lexeme_single hd hl hx]
    exact ⟨hblank, hill, rfl⟩

/-! ### Breaks -/

/-- No number and no word ends here that could go on. -/
structure IsBreak (cs : List Char) (a : Nat) : Prop where
  digits : RunsEnd isDigit isDigit cs a
  words : RunsEnd isLetter isWordChar cs a

theorem isBreak_zero : IsBreak cs 0 :=
  ⟨fun _ h => absurd h.lt (Nat.not_lt_zero _), fun _ h => absurd h.lt (Nat.not_lt_zero _)⟩

/-- A run that ends here has a character of `more` as its last. -/
theorem IsRun.exists_last (h : IsRun first more cs a b)
    (hfirst : ∀ c, first c = true → more c = true) : ∃ c ∈ cs[b - 1]?, more c = true := by
  have hlt := h.lt
  obtain ⟨c, hc⟩ := h.exists_char (show b - 1 < b by omega)
  exact ⟨c, hc, h.all hfirst (by omega) (by omega) c hc⟩

/-- Behind a character of no word there is a break. -/
theorem IsBreak.of_last (hlast : ∀ c ∈ cs[a - 1]?, isWordChar c = false) : IsBreak cs a := by
  constructor
  · intro a' h
    obtain ⟨c, hget, hc⟩ := h.exists_last fun _ hd => hd
    rw [isWordChar_not_digit (hlast c hget)] at hc
    cases hc
  · intro a' h
    obtain ⟨c, hget, hc⟩ := h.exists_last fun _ => isLetter_wordChar
    rw [hlast c hget] at hc
    cases hc

/-- In front of a character of no word there is a break. -/
theorem IsBreak.of_next (hnext : ∀ c ∈ cs[a]?, isWordChar c = false) : IsBreak cs a :=
  ⟨fun _ _ c hc => isWordChar_not_digit (hnext c hc), fun _ _ => hnext⟩

/-- A mark is no part of a word. -/
theorem lexeme_mark (hd : isDigit c = false) (hl : isLetter c = false) :
    ∀ d ∈ (lexeme c ds).text, isWordChar d = false := by
  have hc : isWordChar c = false := isWordChar_eq_false hd hl
  unfold lexeme
  rw [hd, if_neg Bool.false_ne_true, hl, if_neg Bool.false_ne_true]
  split
  · have heq : isWordChar '=' = false := by decide
    exact List.forall_mem_cons.2 ⟨hc, List.forall_mem_singleton.2 heq⟩
  all_goals exact List.forall_mem_singleton.2 hc

/-- **Behind a lexeme there is a break**, if there is one in front of it. -/
theorem IsBreak.past_lexeme (h : IsBreak cs a) (hcs : cs.drop a = c :: ds) :
    IsBreak cs (a + (lexeme c ds).text.length) := by
  by_cases hd : isDigit c = true
  · obtain ⟨es, rest, rfl, hes, hrest⟩ := exists_span isDigit ds
    rw [lexeme_digits hd hes hrest]
    have hrun : IsRun isDigit isDigit cs a (a + (c :: es).length) := IsRun.of_drop hcs hd hes
    refine ⟨fun _ _ e he => hrest e ?_, fun a' hword e he => ?_⟩
    · rwa [getElem?_length_of_drop (c :: es) hcs] at he
    -- a word that ends with these digits starts before them, and would have gone on with them
    exfalso
    rcases Nat.lt_or_ge a' a with hlt | hge
    · have hno := h.words a' (hword.cut hlt (Nat.le_add_right ..)) c (getElem?_of_drop hcs)
      rw [isDigit_wordChar hd] at hno
      cases hno
    · obtain ⟨x, hx⟩ := hword.exists_char hword.lt
      have hletter := hword.head x hx
      have hdigit := hrun.all (fun _ hd => hd) hge hword.lt x hx
      rw [isDigit_not_letter hdigit] at hletter
      cases hletter
  rw [Bool.not_eq_true] at hd
  by_cases hl : isLetter c = true
  · obtain ⟨es, rest, rfl, hes, hrest⟩ := exists_span isWordChar ds
    rw [lexeme_word hd hl hes hrest]
    refine .of_next fun d hd => hrest d ?_
    rwa [getElem?_length_of_drop (c :: es) hcs] at hd
  rw [Bool.not_eq_true] at hl
  rw [← lexeme_append c ds] at hcs
  refine .of_last fun d hlast => ?_
  rw [getElem?_last_of_drop hcs (lexeme_text_ne_nil c ds)] at hlast
  exact lexeme_mark hd hl d (List.mem_of_getLast? hlast)

/-- **Scanning takes a lexeme**, where no number and no word in front of it could go on. -/
theorem IsBreak.isLexeme (h : IsBreak cs a) (hcs : cs.drop a = c :: ds) (hc : isBlank c = false) :
    IsLexeme cs a (a + (lexeme c ds).text.length) (lexeme c ds).kind := by
  by_cases hd : isDigit c = true
  · obtain ⟨es, rest, rfl, hes, hrest⟩ := exists_span isDigit ds
    rw [lexeme_digits hd hes hrest]
    exact .integer (.of_drop hcs (fun _ hd => hd) hd hes hrest h.digits)
  rw [Bool.not_eq_true] at hd
  by_cases hl : isLetter c = true
  · obtain ⟨es, rest, rfl, hes, hrest⟩ := exists_span isWordChar ds
    rw [lexeme_word hd hl hes hrest]
    have hrun : IsLongestRun isLetter isWordChar cs a (a + (c :: es).length) :=
      .of_drop hcs (fun _ => isLetter_wordChar) hl hes hrest h.words
    by_cases hkey : ∃ kind ∈ Kind.keywords, kind.SpelledAs (c :: es)
    · obtain ⟨kind, hkind, hspelled⟩ := hkey
      rw [Kind.ofWord_of_keyword hkind hspelled]
      refine .keyword hkind ?_ hrun
      rwa [stretch_of_drop (c :: es) hcs]
    · have hno : ∀ kind ∈ Kind.keywords, ¬ kind.SpelledAs (c :: es) :=
        fun kind hkind hspelled => hkey ⟨kind, hkind, hspelled⟩
      rw [Kind.ofWord_of_no_keyword hno]
      refine .identifier ?_ hrun
      rwa [stretch_of_drop (c :: es) hcs]
  rw [Bool.not_eq_true] at hl
  have hone : stretch cs a (a + [c].length) = [c] := stretch_of_drop [c] hcs
  cases hx : extensibleKinds c with
  | none =>
    rw [lexeme_single hd hl hx]
    rcases singleKind_eq_illegal_or c with hill | ⟨hmem, hspelled⟩
    · rw [hill]
      exact .illegal hone hc hd hl (not_spelled_of_illegal hx hill)
    · exact .lone hmem (by rwa [hone])
  | some kinds =>
    obtain ⟨halone, hext⟩ := extensibleKinds_mem hx
    obtain ⟨hspelled, hspelled'⟩ := extensibleKinds_spelling hx
    by_cases he : ds.head? = some '='
    · obtain ⟨rest, rfl⟩ : ∃ rest, ds = '=' :: rest := List.head?_eq_some_iff.1 he
      rw [lexeme_extended hd hl hx]
      refine .extended hext ?_
      rwa [stretch_of_drop [c, '='] hcs]
    · rw [lexeme_alone hd hl hx (apart_equals he)]
      refine .extensible halone (by rwa [hone]) ?_
      rwa [getElem?_length_of_drop [c] hcs]

end Ember

import Ember.Proofs.Token.Stream

/-!
# Tokens without places

The kinds and texts of the tokens of a source depend on its text only, piece by piece
(`pieces`). `Spells p cs Q` says that the characters `cs` are lexed to tokens with the
property `Q`, whatever text follows, as long as it starts with no character of `p`.
-/

namespace Ember

open Text

/-- A token without its place. -/
def Token.bare (t : Token) : Kind × String :=
  (t.kind, t.text)

/-- The tokens of a text without their places, and without the end of the text. -/
def pieces : List Char → List (Kind × String)
  | [] => []
  | c :: cs =>
    if isBlank c then pieces cs
    else ((lexeme c cs).kind, String.ofList (lexeme c cs).text) :: pieces (lexeme c cs).rest
termination_by cs => cs.length
decreasing_by
  · exact Nat.lt_succ_self _
  · exact Nat.lt_succ_of_le (lexeme_rest_length c cs)

variable {c : Char} {cs ds rest : List Char}

@[simp]
theorem pieces_nil : pieces [] = [] := by
  rw [pieces]

theorem pieces_blank (hc : isBlank c = true) : pieces (c :: cs) = pieces cs := by
  rw [pieces, if_pos hc]

/-- At a character that is no blank a piece starts, and the others follow it. -/
theorem pieces_cons (hc : isBlank c = false) :
    pieces (c :: cs) =
      ((lexeme c cs).kind, String.ofList (lexeme c cs).text) :: pieces (lexeme c cs).rest := by
  rw [pieces, hc, if_neg Bool.false_ne_true]

theorem pieces_dropWhile (cs : List Char) : pieces (cs.dropWhile isBlank) = pieces cs := by
  induction cs with
  | nil => rfl
  | cons c cs ih =>
    cases hc : isBlank c with
    | true => rw [List.dropWhile_cons_of_pos hc, ih, pieces_blank hc]
    | false => rw [List.dropWhile_cons_of_neg (by rw [hc]; exact Bool.false_ne_true)]

/-- Every piece is a lexeme that starts behind the blanks. -/
theorem mem_pieces {b : Kind × String} (h : b ∈ pieces cs) :
    ∃ c ds, isBlank c = false ∧ b = ((lexeme c ds).kind, String.ofList (lexeme c ds).text) := by
  fun_induction pieces cs with
  | case1 => cases h
  | case2 c cs hc ih => exact ih h
  | case3 c cs hc ih =>
    rcases List.mem_cons.1 h with rfl | h
    · exact ⟨c, cs, by simpa using hc, rfl⟩
    · exact ih h

/-! ## The tokens of a source -/

/-- Scanning collects the pieces of what is left, and the end of the text. -/
theorem Cursor.collect_bare (found : Array Token) (c : Cursor) :
    (c.collect found).toList.map Token.bare =
      found.toList.map Token.bare ++ (pieces c.rest ++ [(.endOfText, "")]) := by
  fun_induction collect found c with
  | case1 found c step h =>
    have hnext : step.1.bare = (.endOfText, "") := by
      simp only [step, next, h]
      rfl
    have hpieces : pieces c.rest = [] := by
      rw [← pieces_dropWhile, ← pieces_nil]
      exact congrArg pieces h
    simp [hnext, hpieces]
  | case2 found c step h ih =>
    obtain ⟨x, xs, hx⟩ := List.exists_cons_of_ne_nil h
    have hdrop : c.rest.dropWhile isBlank = x :: xs := hx
    have hblank : isBlank x = false := by
      have hhead := List.head_dropWhile_not (p := isBlank) (l := c.rest) (by simp [hdrop])
      simpa [hdrop] using hhead
    have hpieces : pieces c.rest = step.1.bare :: pieces step.2.rest := by
      rw [← pieces_dropWhile, hdrop, pieces_cons hblank]
      simp only [step, next, hx]
      rfl
    rw [ih, hpieces]
    simp

/-- The tokens of a source are the pieces of its text, places aside. -/
theorem Source.tokens_bare (s : Source) :
    s.tokens.map Token.bare = pieces s.text.toList ++ [(.endOfText, "")] :=
  (Cursor.ofSource s).collect_bare #[]

/-- **The tokens of a source without their places are the pieces of its text.** -/
theorem Source.programTokens_bare (s : Source) :
    s.programTokens.map Token.bare = pieces s.text.toList := by
  rw [programTokens, List.map_dropLast, s.tokens_bare, List.dropLast_concat]

/-! ## Lexemes in front of a text -/

/-- The text starts with no character of `p`. -/
def Apart (p : Char → Bool) (cs : List Char) : Prop :=
  ∀ c ∈ cs.head?, p c = false

/-- What is apart from a text is so from a longer one. -/
theorem Apart.append {p : Char → Bool} (h : Apart p cs) (hr : Apart p rest) :
    Apart p (cs ++ rest) := by
  cases cs with
  | nil => exact hr
  | cons c cs => exact h

theorem apart_equals (h : cs.head? ≠ some '=') : Apart (· = '=') cs :=
  fun _ hc => decide_eq_false fun heq => h (heq ▸ hc)

/-- A run that is apart from what follows is taken whole. -/
theorem takeWhile_append_of_apart {p : Char → Bool} (hcs : ∀ c ∈ cs, p c = true)
    (h : Apart p rest) : (cs ++ rest).takeWhile p = cs := by
  rw [List.takeWhile_append_of_pos hcs]
  cases rest with
  | nil => simp
  | cons c rest => simp [h c rfl]

/-- A run that is apart from what follows is dropped whole. -/
theorem dropWhile_append_of_apart {p : Char → Bool} (hcs : ∀ c ∈ cs, p c = true)
    (h : Apart p rest) : (cs ++ rest).dropWhile p = rest := by
  rw [List.dropWhile_append_of_pos hcs]
  cases rest with
  | nil => rfl
  | cons c rest => simp [h c rfl]

theorem isDigit_not_blank (hc : isDigit c = true) : isBlank c = false := by
  simp only [isDigit, Bool.and_eq_true, decide_eq_true_eq] at hc
  have h₁ : 48 ≤ c.toNat := hc.1
  have h₂ : c.toNat ≤ 57 := hc.2
  simp only [isBlank, inRanges, blankRanges, List.any_cons, List.any_nil, Bool.or_false,
    Bool.or_eq_false_iff, Bool.and_eq_false_iff, decide_eq_false_iff_not, Nat.not_le]
  omega

/-- What a name or a keyword is spelled with. -/
structure IsWord (cs : List Char) : Prop where
  ne_nil : cs ≠ []
  blank : ∀ c ∈ cs.head?, isBlank c = false
  digit : ∀ c ∈ cs.head?, isDigit c = false
  letter : ∀ c ∈ cs.head?, isLetter c = true
  all : ∀ c ∈ cs.tail, isWordChar c = true

/-- A character that starts an operator or stands alone. -/
structure IsMark (c : Char) : Prop where
  blank : isBlank c = false
  digit : isDigit c = false
  letter : isLetter c = false

/-- Digits are one integer literal, up to something that is no digit. -/
theorem lexeme_digits (hc : isDigit c = true) (hds : ∀ d ∈ ds, isDigit d = true)
    (h : Apart isDigit rest) : lexeme c (ds ++ rest) = ⟨.integer, c :: ds, rest⟩ := by
  unfold lexeme
  rw [if_pos hc, takeWhile_append_of_apart hds h, dropWhile_append_of_apart hds h]

/-- A letter and what goes on with it are one word. -/
theorem lexeme_word (hd : isDigit c = false) (hl : isLetter c = true)
    (hds : ∀ d ∈ ds, isWordChar d = true) (h : Apart isWordChar rest) :
    lexeme c (ds ++ rest) = ⟨Kind.ofWord (String.ofList (c :: ds)), c :: ds, rest⟩ := by
  unfold lexeme
  rw [hd, if_neg Bool.false_ne_true, hl, if_pos rfl]
  simp only [takeWhile_append_of_apart hds h, dropWhile_append_of_apart hds h]

/-- A character that starts no operator of two is a token alone. -/
theorem lexeme_single (hd : isDigit c = false) (hl : isLetter c = false)
    (hx : extensibleKinds c = none) : lexeme c rest = ⟨singleKind c, [c], rest⟩ := by
  simp [lexeme, hd, hl, hx]

/-- With an equals sign behind it a character may be an operator of two. -/
theorem lexeme_extended {kinds : Kind × Kind} (hd : isDigit c = false) (hl : isLetter c = false)
    (hx : extensibleKinds c = some kinds) :
    lexeme c ('=' :: rest) = ⟨kinds.2, [c, '='], rest⟩ := by
  simp [lexeme, hd, hl, hx]

/-- Without an equals sign behind it that character is a token alone. -/
theorem lexeme_alone {kinds : Kind × Kind} (hd : isDigit c = false) (hl : isLetter c = false)
    (hx : extensibleKinds c = some kinds) (h : Apart (· = '=') rest) :
    lexeme c rest = ⟨kinds.1, [c], rest⟩ := by
  cases rest with
  | nil => simp [lexeme, hd, hl, hx]
  | cons d rest =>
    have hne : d ≠ '=' := by simpa using h d rfl
    simp [lexeme, hd, hl, hx, hne]

/-- Digits in front of something else are an integer. -/
theorem pieces_digits (hne : cs ≠ []) (hcs : ∀ c ∈ cs, isDigit c = true)
    (h : Apart isDigit rest) :
    pieces (cs ++ rest) = (.integer, String.ofList cs) :: pieces rest := by
  obtain ⟨c, ds, rfl⟩ := List.exists_cons_of_ne_nil hne
  obtain ⟨hc, hds⟩ := List.forall_mem_cons.1 hcs
  rw [List.cons_append, pieces_cons (isDigit_not_blank hc), lexeme_digits hc hds h]

/-- A word in front of something else is a keyword or a name. -/
theorem pieces_word (hw : IsWord cs) (h : Apart isWordChar rest) :
    pieces (cs ++ rest) = (Kind.ofWord (String.ofList cs), String.ofList cs) :: pieces rest := by
  obtain ⟨c, ds, rfl⟩ := List.exists_cons_of_ne_nil hw.ne_nil
  have hds : ∀ d ∈ ds, isWordChar d = true := hw.all
  rw [List.cons_append, pieces_cons (hw.blank c rfl),
    lexeme_word (hw.digit c rfl) (hw.letter c rfl) hds h]

/-- A mark is a piece, whatever follows. -/
theorem pieces_single (hc : IsMark c) (hx : extensibleKinds c = none) :
    pieces (c :: rest) = (singleKind c, String.ofList [c]) :: pieces rest := by
  rw [pieces_cons hc.blank, lexeme_single hc.digit hc.letter hx]

/-- An operator of two characters is a piece, whatever follows. -/
theorem pieces_extended {kinds : Kind × Kind} (hc : IsMark c)
    (hx : extensibleKinds c = some kinds) :
    pieces (c :: '=' :: rest) = (kinds.2, String.ofList [c, '=']) :: pieces rest := by
  rw [pieces_cons hc.blank, lexeme_extended hc.digit hc.letter hx]

/-- A mark that could be extended is a piece where no equals sign follows. -/
theorem pieces_alone {kinds : Kind × Kind} (hc : IsMark c) (hx : extensibleKinds c = some kinds)
    (h : Apart (· = '=') rest) :
    pieces (c :: rest) = (kinds.1, String.ofList [c]) :: pieces rest := by
  rw [pieces_cons hc.blank, lexeme_alone hc.digit hc.letter hx h]

/-! ## What the tokens of a source are spelled with -/

theorem IsWord.all_mem (hw : IsWord cs) (hc : c ∈ cs) : isWordChar c = true := by
  obtain ⟨d, ds, rfl⟩ := List.exists_cons_of_ne_nil hw.ne_nil
  rcases List.mem_cons.1 hc with rfl | hc
  · rw [isWordChar, hw.letter c rfl, Bool.true_or]
  · exact hw.all c hc

/-- No word is an integer literal. -/
theorem Kind.ofWord_ne_integer (word : String) : Kind.ofWord word ≠ .integer := by
  unfold ofWord
  split <;> decide

theorem extensibleKinds_ne_name {kinds : Kind × Kind} (h : extensibleKinds c = some kinds) :
    kinds.1 ≠ .identifier ∧ kinds.1 ≠ .integer ∧ kinds.2 ≠ .identifier ∧ kinds.2 ≠ .integer := by
  unfold extensibleKinds at h
  split at h <;> cases h <;> decide

theorem singleKind_ne_name (c : Char) : singleKind c ≠ .identifier ∧ singleKind c ≠ .integer := by
  unfold singleKind
  split <;> decide

/-- Names are words. -/
theorem lexeme_identifier (hc : isBlank c = false) (h : (lexeme c cs).kind = .identifier) :
    IsWord (lexeme c cs).text ∧ Kind.ofWord (String.ofList (lexeme c cs).text) = .identifier := by
  revert h
  unfold lexeme
  split
  · intro h
    cases h
  split
  · next hd hl =>
    intro h
    refine ⟨⟨List.cons_ne_nil _ _, ?_, ?_, ?_, fun d hd => ?_⟩, h⟩
    · exact fun d hd => Option.some.inj hd ▸ hc
    · exact fun d hd' => Option.some.inj hd' ▸ Bool.eq_false_iff.2 hd
    · exact fun d hd => Option.some.inj hd ▸ hl
    · exact List.all_eq_true.1 List.all_takeWhile d hd
  split
  · next hk => exact fun h => absurd h (extensibleKinds_ne_name hk).2.2.1
  · next hk _ => exact fun h => absurd h (extensibleKinds_ne_name hk).1
  · exact fun h => absurd h (singleKind_ne_name c).1

/-- Integers are digits. -/
theorem lexeme_integer (h : (lexeme c cs).kind = .integer) :
    (lexeme c cs).text ≠ [] ∧ ∀ d ∈ (lexeme c cs).text, isDigit d = true := by
  revert h
  unfold lexeme
  split
  · next hc =>
    intro _
    refine ⟨List.cons_ne_nil _ _, List.forall_mem_cons.2 ⟨hc, fun d hd => ?_⟩⟩
    exact List.all_eq_true.1 List.all_takeWhile d hd
  split
  · exact fun h => absurd h (Kind.ofWord_ne_integer _)
  split
  · next hk => exact fun h => absurd h (extensibleKinds_ne_name hk).2.2.2
  · next hk _ => exact fun h => absurd h (extensibleKinds_ne_name hk).2.1
  · exact fun h => absurd h (singleKind_ne_name c).2

/-- The text of a token is one of its kind. -/
structure Token.Lexed (t : Token) : Prop where
  spelled : ∀ text, t.kind.spelling? = some text → t.text = text
  word : t.kind = .identifier → IsWord t.text.toList ∧ Kind.ofWord t.text = .identifier
  digits : t.kind = .integer → t.text.toList ≠ [] ∧ ∀ c ∈ t.text.toList, isDigit c = true

/-- **Every token has a text that is lexed to its kind.** -/
theorem Source.lexed {s : Source} {t : Token} (ht : t ∈ s.tokens) : t.Lexed := by
  refine ⟨fun _ h => tokens_spelling ht h, fun h => ?_, fun h => ?_⟩
  all_goals
    -- the end of the text is no piece, and has no such kind
    obtain ⟨last, he, hlast, -⟩ := s.tokens_eq
    have hmem : t ∈ s.programTokens := by
      rw [he, List.mem_append, List.mem_singleton] at ht
      refine ht.resolve_right ?_
      rintro rfl
      rw [hlast] at h
      cases h
    obtain ⟨c, ds, hc, hbare⟩ := mem_pieces (s.programTokens_bare ▸ List.mem_map_of_mem hmem)
    obtain ⟨hkind, htext⟩ :
        t.kind = (lexeme c ds).kind ∧ t.text = String.ofList (lexeme c ds).text := Prod.mk.inj hbare
    rw [← String.ofList_toList (s := t.text), String.ofList_inj] at htext
  · obtain ⟨hw, hk⟩ := lexeme_identifier hc (hkind ▸ h)
    rw [← htext] at hw hk
    exact ⟨hw, by rwa [String.ofList_toList] at hk⟩
  · rw [htext]
    exact lexeme_integer (hkind ▸ h)

/-! ## Texts that are lexed to something -/

/-- The characters are lexed to tokens with the property `Q`, whatever text follows, as
long as it starts with no character of `p`. -/
def Spells (p : Char → Bool) (cs : List Char) (Q : List Token → Prop) : Prop :=
  ∀ rest ts, Apart p rest → ts.map Token.bare = pieces (cs ++ rest) →
    ∃ us vs, ts = us ++ vs ∧ Q us ∧ vs.map Token.bare = pieces rest

namespace Spells

variable {p : Char → Bool} {Q R : List Token → Prop}

theorem mono (h : Spells p cs Q) (hQ : ∀ ts, Q ts → R ts) : Spells p cs R := by
  intro rest ts hrest hts
  obtain ⟨us, vs, he, hus, hvs⟩ := h rest ts hrest hts
  exact ⟨us, vs, he, hQ us hus, hvs⟩

theorem nil : Spells p [] (· = []) :=
  fun _ ts _ hts => ⟨[], ts, rfl, rfl, hts⟩

/-- Texts in a row that are apart are lexed one after the other. -/
theorem append (h₁ : Spells p cs Q) (h₂ : Spells p ds R) (hd : Apart p ds) :
    Spells p (cs ++ ds) fun ts => ∃ us vs, ts = us ++ vs ∧ Q us ∧ R vs := by
  intro rest ts hrest hts
  rw [List.append_assoc] at hts
  obtain ⟨us, vs, rfl, hus, hvs⟩ := h₁ _ ts (hd.append hrest) hts
  obtain ⟨us', vs', rfl, hus', hvs'⟩ := h₂ rest vs hrest hvs
  exact ⟨us ++ us', vs', (List.append_assoc ..).symm, ⟨us, us', rfl, hus, hus'⟩, hvs'⟩

/-- A blank in front changes nothing. -/
theorem blank (hc : isBlank c = true) (h : Spells p cs Q) : Spells p (c :: cs) Q := by
  intro rest ts hrest hts
  rw [List.cons_append, pieces_blank hc] at hts
  exact h rest ts hrest hts

/-- A blank behind changes nothing. -/
theorem append_blank (h : Spells p cs Q) (hc : isBlank c = true) (hp : p c = false) :
    Spells p (cs ++ [c]) Q := by
  intro rest ts hrest hts
  rw [List.append_assoc] at hts
  obtain ⟨us, vs, he, hus, hvs⟩ := h _ ts (fun d hd => by cases hd; exact hp) hts
  exact ⟨us, vs, he, hus, by rw [hvs, List.singleton_append, pieces_blank hc]⟩

/-- A piece in front is one more token. -/
theorem piece {b : Kind × String} (h : Spells p ds Q)
    (hb : ∀ rest, Apart p rest → pieces (cs ++ rest) = b :: pieces (ds ++ rest)) :
    Spells p cs fun ts => ∃ t us, ts = t :: us ∧ t.bare = b ∧ Q us := by
  intro rest ts hrest hts
  rw [hb rest hrest] at hts
  obtain ⟨t, vs, rfl, ht, hvs⟩ := List.map_eq_cons_iff.1 hts
  obtain ⟨us, vs, rfl, hus, hvs⟩ := h rest vs hrest hvs
  exact ⟨t :: us, vs, rfl, ⟨t, us, rfl, ht, hus⟩, hvs⟩

/-- A mark in front is one more token with itself for its text. -/
theorem single (hc : IsMark c) (hx : extensibleKinds c = none) (h : Spells p ds Q) :
    Spells p (c :: ds) fun ts =>
      ∃ t us, ts = t :: us ∧ t.bare = (singleKind c, String.ofList [c]) ∧ Q us :=
  h.piece fun _ _ => pieces_single hc hx

/-- A word in front of something else. -/
theorem word (hw : IsWord cs) (h : Spells isWordChar ds Q) (hd : Apart isWordChar ds) :
    Spells isWordChar (cs ++ ds) fun ts =>
      ∃ t us, ts = t :: us ∧
        t.bare = (Kind.ofWord (String.ofList cs), String.ofList cs) ∧ Q us := by
  refine h.piece fun rest hrest => ?_
  rw [List.append_assoc]
  exact pieces_word hw (hd.append hrest)

/-- Digits alone are an integer. -/
theorem digits (hne : cs ≠ []) (hcs : ∀ c ∈ cs, isDigit c = true)
    (hp : ∀ c, isDigit c = true → p c = true) :
    Spells p cs fun ts => ∃ t, ts = [t] ∧ t.bare = (.integer, String.ofList cs) := by
  have h : Spells p cs fun ts => ∃ t us, ts = t :: us ∧ t.bare = (.integer, String.ofList cs) ∧
      us = [] :=
    nil.piece fun rest hrest => pieces_digits hne hcs fun c hc => by
      have := hrest c hc
      cases hd : isDigit c with
      | false => rfl
      | true => rw [hp c hd] at this; cases this
  refine h.mono ?_
  rintro ts ⟨t, us, rfl, ht, rfl⟩
  exact ⟨t, rfl, ht⟩

end Spells

/-- A source whose text is lexed so has such tokens. -/
theorem Source.programTokens_spelled {s : Source} {p : Char → Bool} {Q : List Token → Prop}
    (h : Spells p s.text.toList Q) : Q s.programTokens := by
  obtain ⟨us, vs, he, hus, hvs⟩ := h [] s.programTokens (fun c hc => by cases hc)
    (by rw [List.append_nil, programTokens_bare])
  rw [pieces_nil, List.map_eq_nil_iff] at hvs
  rwa [he, hvs, List.append_nil]

end Ember

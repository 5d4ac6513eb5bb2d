import Ember.Token.Scan

/-!
# The tokens of a source

The end of the text is the last token of a source and none of the others
(`Source.tokens_eq`). The tokens before it are the program (`Source.programTokens`).
-/

namespace Ember

/-! ## Lexemes -/

/-- A lexeme and what stands behind it are the text. -/
theorem lexeme_append (c : Char) (cs : List Char) :
    (lexeme c cs).text ++ (lexeme c cs).rest = c :: cs := by
  unfold lexeme
  split
  · exact congrArg (c :: ·) List.takeWhile_append_dropWhile
  split
  · exact congrArg (c :: ·) List.takeWhile_append_dropWhile
  split <;> rfl

/-- A lexeme starts with the first character. -/
theorem lexeme_text_head (c : Char) (cs : List Char) :
    ∃ ds, (lexeme c cs).text = c :: ds := by
  unfold lexeme
  split
  · exact ⟨_, rfl⟩
  split
  · exact ⟨_, rfl⟩
  split <;> exact ⟨_, rfl⟩

theorem Kind.ofWord_ne_endOfText (word : String) : Kind.ofWord word ≠ .endOfText := by
  unfold ofWord
  split <;> decide

/-- No operator is the end of the text. -/
theorem extensibleKinds_ne_endOfText {c : Char} {kinds : Kind × Kind}
    (h : extensibleKinds c = some kinds) : kinds.1 ≠ .endOfText ∧ kinds.2 ≠ .endOfText := by
  unfold extensibleKinds at h
  split at h <;> cases h <;> decide

theorem singleKind_ne_endOfText (c : Char) : singleKind c ≠ .endOfText := by
  unfold singleKind
  split <;> decide

/-- No piece of the text is its end. -/
theorem lexeme_kind_ne_endOfText (c : Char) (cs : List Char) :
    (lexeme c cs).kind ≠ .endOfText := by
  unfold lexeme
  split
  · exact Kind.noConfusion
  split
  · exact Kind.ofWord_ne_endOfText _
  split
  · next h => exact (extensibleKinds_ne_endOfText h).2
  · next h _ => exact (extensibleKinds_ne_endOfText h).1
  · exact singleKind_ne_endOfText c

/-- The text of a token whose kind has only one. -/
def Kind.spelling? : Kind → Option String
  | assign => some "="
  | plus => some "+"
  | minus => some "-"
  | bang => some "!"
  | star => some "*"
  | slash => some "/"
  | less => some "<"
  | greater => some ">"
  | lessEqual => some "<="
  | greaterEqual => some ">="
  | equal => some "=="
  | notEqual => some "!="
  | comma => some ","
  | semicolon => some ";"
  | leftParen => some "("
  | rightParen => some ")"
  | leftBrace => some "\x7b"
  | rightBrace => some "\x7d"
  | letWord => some "let"
  | functionWord => some "function"
  | ifWord => some "if"
  | elseWord => some "else"
  | forWord => some "for"
  | whileWord => some "while"
  | endOfText => some ""
  | illegal | identifier | integer => none

/-- A keyword is spelled as the word that it comes of. -/
theorem Kind.ofWord_spelling {word text : String} (h : (Kind.ofWord word).spelling? = some text) :
    word = text := by
  unfold ofWord at h
  split at h <;> cases h <;> rfl

/-- Operators that can be extended are spelled with or without the equals sign. -/
theorem extensibleKinds_spelling {c : Char} {kinds : Kind × Kind}
    (h : extensibleKinds c = some kinds) :
    kinds.1.spelling? = some (String.ofList [c]) ∧
      kinds.2.spelling? = some (String.ofList [c, '=']) := by
  unfold extensibleKinds at h
  split at h <;> cases h <;> decide

/-- A mark of its own is spelled as itself. -/
theorem singleKind_spelling {c : Char} {text : String} (h : (singleKind c).spelling? = some text) :
    String.ofList [c] = text := by
  unfold singleKind at h
  split at h <;> cases h <;> decide

/-- A lexeme of a kind with only one spelling is spelled so. -/
theorem lexeme_spelling {c : Char} {cs : List Char} {text : String}
    (h : (lexeme c cs).kind.spelling? = some text) :
    String.ofList (lexeme c cs).text = text := by
  revert h
  unfold lexeme
  split
  · intro h
    cases h
  split
  · exact Kind.ofWord_spelling
  split
  · next hk =>
    intro h
    exact Option.some.inj ((extensibleKinds_spelling hk).2.symm.trans h)
  · next hk _ =>
    intro h
    exact Option.some.inj ((extensibleKinds_spelling hk).1.symm.trans h)
  · exact singleKind_spelling

/-! ## All tokens -/

namespace Cursor

/-- Where only blanks are left, the next token is the end of the text. -/
theorem next_kind_eq {c : Cursor} (h : c.skipBlanks.rest = []) :
    c.next.1.kind = .endOfText := by
  unfold next
  dsimp only
  rw [h]

/-- Where something is left, the next token is not the end of the text. -/
theorem next_kind_ne {c : Cursor} (h : c.skipBlanks.rest ≠ []) :
    c.next.1.kind ≠ .endOfText := by
  unfold next
  dsimp only
  split
  · next he => exact absurd he h
  · exact lexeme_kind_ne_endOfText _ _

/-- The token of a kind with only one spelling is spelled so. -/
theorem next_spelling {c : Cursor} {text : String} (h : c.next.1.kind.spelling? = some text) :
    c.next.1.text = text := by
  revert h
  unfold next
  dsimp only
  split
  · intro h
    cases h
    rfl
  · exact lexeme_spelling

/-- Every token of a spelled kind that is collected has the spelling for its text. -/
theorem collect_spelling {found : Array Token} {c : Cursor} {t : Token} {text : String}
    (ht : t ∈ (c.collect found).toList) (hfound : t ∉ found.toList)
    (h : t.kind.spelling? = some text) : t.text = text := by
  fun_induction collect found c with
  | case1 found c step hend =>
    rw [Array.toList_push, List.mem_append, List.mem_singleton] at ht
    rcases ht with ht | rfl
    · exact absurd ht hfound
    · exact next_spelling h
  | case2 found c step hend ih =>
    by_cases hs : t = step.1
    · subst hs
      exact next_spelling h
    · refine ih ht ?_
      rw [Array.toList_push, List.mem_append, List.mem_singleton, not_or]
      exact ⟨hfound, hs⟩

/-- The end of the text is found last, and once. -/
theorem collect_eq (found : Array Token) (c : Cursor) :
    ∃ ts last, (c.collect found).toList = found.toList ++ (ts ++ [last]) ∧
      last.kind = .endOfText ∧ ∀ t ∈ ts, t.kind ≠ .endOfText := by
  fun_induction collect found c with
  | case1 found c step h =>
    exact ⟨[], step.1, by simp, next_kind_eq h, by simp⟩
  | case2 found c step h ih =>
    obtain ⟨ts, last, he, hl, hts⟩ := ih
    refine ⟨step.1 :: ts, last, by simp [he], hl, ?_⟩
    intro t ht
    rcases List.mem_cons.1 ht with rfl | ht
    · exact next_kind_ne h
    · exact hts t ht

/-! ## Round by round -/

/-- The tokens from the cursor to the end of the text, in at most as many rounds as the
number says. -/
def tokensWithin : Nat → Cursor → List Token
  | 0, _ => []
  | n + 1, c => if c.skipBlanks.rest = [] then [c.next.1] else c.next.1 :: tokensWithin n c.next.2

/-- No more rounds are needed than there are characters. -/
theorem collect_eq_tokensWithin {n : Nat} (found : Array Token) (c : Cursor)
    (hn : c.rest.length < n) : (c.collect found).toList = found.toList ++ c.tokensWithin n := by
  induction n generalizing found c with
  | zero => exact absurd hn (Nat.not_lt_zero _)
  | succ n ih =>
    rw [collect, tokensWithin]
    by_cases h : c.skipBlanks.rest = []
    · rw [if_pos h, if_pos h, Array.toList_push]
    · have hrest := next_rest_length h
      rw [if_neg h, if_neg h, ih _ _ (by omega), Array.toList_push, List.append_assoc,
        List.singleton_append]

end Cursor

namespace Source

/-- The tokens of a source before the end of the text. -/
def programTokens (s : Source) : List Token :=
  s.tokens.dropLast

/-- **The tokens of a source end with the end of the text, which comes only there.** -/
theorem tokens_eq (s : Source) :
    ∃ last, s.tokens = s.programTokens ++ [last] ∧ last.kind = .endOfText ∧
      ∀ t ∈ s.programTokens, t.kind ≠ .endOfText := by
  obtain ⟨ts, last, he, hl, hts⟩ := (Cursor.ofSource s).collect_eq #[]
  have htokens : s.tokens = ts ++ [last] := he
  have hprogram : s.programTokens = ts := by
    rw [programTokens, htokens, List.dropLast_concat]
  exact ⟨last, by rw [hprogram, htokens], hl, by rwa [hprogram]⟩

/-- Tokens of a kind with only one spelling are spelled so. -/
theorem tokens_spelling {s : Source} {t : Token} {text : String} (ht : t ∈ s.tokens)
    (h : t.kind.spelling? = some text) : t.text = text :=
  Cursor.collect_spelling ht (by simp) h

/-- The last token is the end of the text. -/
theorem tokens_ended (s : Source) : ∃ last, [last] <:+ s.tokens ∧ last.kind = .endOfText := by
  obtain ⟨last, he, hl, -⟩ := s.tokens_eq
  exact ⟨last, he ▸ List.suffix_append _ _, hl⟩

/-- The tokens of characters, found round by round. -/
theorem tokens_ofList {n : Nat} (cs : List Char) (hn : cs.length < n) :
    tokens { text := String.ofList cs } = Cursor.tokensWithin n ⟨.start none, cs⟩ := by
  rw [tokens, Cursor.tokens, Cursor.ofSource, String.toList_ofList,
    Cursor.collect_eq_tokensWithin #[] _ hn]
  rfl

end Source

end Ember

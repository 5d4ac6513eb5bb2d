import Ember.Proofs.Token.Longest
import Mathlib.Data.List.Induction

/-!
# The tokens of a source, without scanning it

What the list of the tokens of a source has to be is told by the text alone: each token stands
where it says and is a lexeme there, they come in order, nothing but blanks is left between them,
and the end of the text comes last (`Source.Tokenization`). There is one such list, and it is the
one that scanning gives (`Source.tokenization_iff`).
-/

namespace Ember

open Text

/-! ## Places -/

namespace Source

variable {s : Source} {j k : Nat} {c : Char} {ds es rest : List Char}

/-- The characters of a source. -/
abbrev chars (s : Source) : List Char :=
  s.text.toList

/-- The place of an offset: its line is told by the line feeds before it, its column by how far
back the last one is, or the start of the text. -/
def place (s : Source) (k : Nat) : Location where
  line := 1 + (s.chars.take k).count '\n'
  column := 1 + ((s.chars.take k).reverse.takeWhile (· ≠ '\n')).length
  offset := k
  file := s.file

theorem pastAll_start (file : Option String) (cs : List Char) :
    (Location.start file).pastAll cs =
      ⟨1 + cs.count '\n', 1 + (cs.reverse.takeWhile (· ≠ '\n')).length, cs.length, file⟩ := by
  induction cs using List.reverseRecOn with
  | nil => rfl
  | append_singleton cs c ih =>
    rw [Location.pastAll, List.foldl_append, List.foldl_cons, List.foldl_nil, ← Location.pastAll,
      ih, Location.past]
    by_cases hc : c = '\n'
    · subst hc
      simp [Nat.add_assoc]
    · simp [hc, Nat.add_assoc]

theorem place_eq (hk : k ≤ s.chars.length) :
    s.place k = (Location.start s.file).pastAll (s.chars.take k) := by
  rw [pastAll_start, List.length_take, Nat.min_eq_left hk, place]

theorem place_add (hk : k ≤ s.chars.length) (hes : s.chars.drop k = es ++ rest) :
    (s.place k).pastAll es = s.place (k + es.length) := by
  have htake : s.chars.take (k + es.length) = s.chars.take k ++ es := by
    rw [List.take_add, hes, List.take_left]
  rw [place_eq hk, place_eq (add_length_le_of_drop hes hk), htake, Location.pastAll,
    Location.pastAll, Location.pastAll, List.foldl_append]

/-- The cursor at an offset. -/
def cursor (s : Source) (k : Nat) : Cursor :=
  { place := s.place k, rest := s.chars.drop k }

/-- Skipping blanks leads to a cursor further right, at the end or in front of a character that
is no blank. -/
theorem exists_skipBlanks (hk : k ≤ s.chars.length) :
    ∃ j, k ≤ j ∧ j ≤ s.chars.length ∧ (s.cursor k).skipBlanks = s.cursor j ∧
      (∀ i, k ≤ i → i < j → ∀ c ∈ s.chars[i]?, isBlank c = true) ∧
      ∀ c ∈ s.chars[j]?, isBlank c = false := by
  obtain ⟨bs, rest, hdrop, hbs, hrest⟩ := exists_span isBlank (s.chars.drop k)
  refine ⟨k + bs.length, Nat.le_add_right .., add_length_le_of_drop hdrop hk, ?_, ?_, ?_⟩
  · rw [Cursor.skipBlanks, cursor, cursor, hdrop, takeWhile_append_of_apart hbs hrest,
      dropWhile_append_of_apart hbs hrest, place_add hk hdrop, drop_add_of_drop hdrop]
  · intro i hki hij c hc
    obtain ⟨n, rfl⟩ := Nat.exists_eq_add_of_le hki
    rw [← List.getElem?_drop, hdrop, List.getElem?_append_left (by omega)] at hc
    exact hbs c (List.mem_of_getElem? hc)
  · intro c hc
    rw [getElem?_length_of_drop bs hdrop] at hc
    exact hrest c hc

/-! ## Tokens that stand in a text -/

/-- The token stands in the source where its span says, and is a lexeme there. -/
structure Holds (s : Source) (t : Token) : Prop where
  start : t.span.start = s.place t.span.start.offset
  stop : t.span.stop = s.place t.span.stop.offset
  lt : t.span.start.offset < t.span.stop.offset
  le : t.span.stop.offset ≤ s.chars.length
  text : t.text = String.ofList (stretch s.chars t.span.start.offset t.span.stop.offset)
  isLexeme : IsLexeme s.chars t.span.start.offset t.span.stop.offset t.kind

/-- The end of the text as a token. -/
def endToken (s : Source) : Token where
  kind := .endOfText
  text := ""
  span := ⟨s.place s.chars.length, s.place s.chars.length⟩

/-- The tokens are those of the source from an offset on: tokens that stand in it and then the
end of the text, in order, with nothing but blanks between them. -/
structure Tokenization (s : Source) (k : Nat) (ts : List Token) : Prop where
  ended : ∃ before, ts = before ++ [s.endToken] ∧ ∀ t ∈ before, t.kind ≠ .endOfText ∧ s.Holds t
  behind : ∀ t ∈ ts, k ≤ t.span.start.offset
  ordered : ts.Pairwise (·.span.stop.offset ≤ ·.span.start.offset)
  covered : ∀ i c, k ≤ i → s.chars[i]? = some c →
    (∀ t ∈ ts, ¬ (t.span.start.offset ≤ i ∧ i < t.span.stop.offset)) → isBlank c = true

variable {t : Token} {ts : List Token}

/-- The token that the lexeme at an offset is. -/
def lexemeToken (s : Source) (k : Nat) (c : Char) (ds : List Char) : Token where
  kind := (lexeme c ds).kind
  text := String.ofList (lexeme c ds).text
  span := ⟨s.place k, s.place (k + (lexeme c ds).text.length)⟩

theorem Holds.exists_drop (h : s.Holds t) :
    ∃ c ds, s.chars.drop t.span.start.offset = c :: ds :=
  List.exists_cons_of_ne_nil fun hnil => by
    have hlt := h.lt
    have hle := h.le
    have hlength := congrArg List.length hnil
    rw [List.length_drop, List.length_nil] at hlength
    omega

/-- A token does not start with a blank. -/
theorem Holds.not_blank (h : s.Holds t) :
    ∃ c ∈ s.chars[t.span.start.offset]?, isBlank c = false := by
  obtain ⟨c, ds, hdrop⟩ := h.exists_drop
  exact ⟨c, getElem?_of_drop hdrop, (h.isLexeme.eq_lexeme h.le hdrop).1⟩

/-- **A token that stands in a source is known by its start.** -/
theorem Holds.eq_lexemeToken (h : s.Holds t) (hdrop : s.chars.drop t.span.start.offset = c :: ds) :
    t = s.lexemeToken t.span.start.offset c ds := by
  obtain ⟨-, hkind, hoffset⟩ := h.isLexeme.eq_lexeme h.le hdrop
  have htext := h.text
  have hstart := h.start
  have hstop := h.stop
  rw [hoffset] at htext hstop
  rw [← lexeme_append c ds] at hdrop
  rw [stretch_of_drop _ hdrop] at htext
  obtain ⟨kind, text, start, stop⟩ := t
  dsimp only at hkind htext hstart hstop ⊢
  rw [lexemeToken, hkind, ← htext, ← hstop, ← hstart]

/-- Where no number and no word in front of it could go on, the lexeme at an offset stands there. -/
theorem holds_lexemeToken (hbreak : IsBreak s.chars k) (hdrop : s.chars.drop k = c :: ds)
    (hc : isBlank c = false) : s.Holds (s.lexemeToken k c ds) := by
  have hk : k ≤ s.chars.length :=
    Nat.le_of_lt (List.getElem?_eq_some_iff.1 (getElem?_of_drop hdrop)).1
  have hpos := List.length_pos_iff.2 (lexeme_text_ne_nil c ds)
  have hlexeme := hbreak.isLexeme hdrop hc
  rw [← lexeme_append c ds] at hdrop
  refine ⟨rfl, rfl, Nat.lt_add_of_pos_right hpos, add_length_le_of_drop hdrop hk, ?_, hlexeme⟩
  exact congrArg String.ofList (stretch_of_drop _ hdrop).symm

/-! ## One token after another -/

/-- Where nothing but blanks is left, the end of the text is the only token. -/
theorem tokenization_end (hblank : ∀ i c, k ≤ i → s.chars[i]? = some c → isBlank c = true)
    (hk : k ≤ s.chars.length) : s.Tokenization k ts ↔ ts = [s.endToken] := by
  constructor
  · intro h
    obtain ⟨before, rfl, hbefore⟩ := h.ended
    cases before with
    | nil => rfl
    | cons t before =>
      obtain ⟨c, hget, hc⟩ := (hbefore t (by simp)).2.not_blank
      rw [hblank _ c (h.behind t (by simp)) hget] at hc
      cases hc
  · rintro rfl
    refine ⟨⟨[], rfl, by simp⟩, ?_, List.pairwise_singleton .., fun i c hi hget _ => ?_⟩
    · exact List.forall_mem_singleton.2 hk
    · exact hblank i c hi hget

/-- **One token more**: in front of a character that is no blank stands its lexeme, and the other
tokens are those from behind it on. -/
theorem tokenization_cons {j : Nat} (hkj : k ≤ j) (hbreak : IsBreak s.chars j)
    (hblank : ∀ i, k ≤ i → i < j → ∀ c ∈ s.chars[i]?, isBlank c = true)
    (hdrop : s.chars.drop j = c :: ds) (hc : isBlank c = false) :
    s.Tokenization k ts ↔ ∃ us, ts = s.lexemeToken j c ds :: us ∧
      s.Tokenization (j + (lexeme c ds).text.length) us := by
  have hnew := holds_lexemeToken hbreak hdrop hc
  have hget : s.chars[j]? = some c := getElem?_of_drop hdrop
  constructor
  · intro h
    obtain ⟨before, rfl, hbefore⟩ := h.ended
    -- some token holds the character, and it is no later one than the first
    obtain ⟨t, ht, hle, hlt⟩ : ∃ t ∈ before ++ [s.endToken],
        t.span.start.offset ≤ j ∧ j < t.span.stop.offset := by
      by_contra hfree
      have hblank := h.covered j c hkj hget fun t ht hin => hfree ⟨t, ht, hin⟩
      rw [hblank] at hc
      cases hc
    have hright : ∀ t ∈ before, j ≤ t.span.start.offset := by
      intro t ht
      obtain ⟨d, hd, hd'⟩ := (hbefore t ht).2.not_blank
      refine Nat.le_of_not_lt fun hlt => ?_
      rw [hblank _ (h.behind t (List.mem_append_left _ ht)) hlt d hd] at hd'
      cases hd'
    cases before with
    | nil =>
      obtain rfl : t = s.endToken := List.mem_singleton.1 ht
      exact absurd hlt (Nat.not_lt_of_le hle)
    | cons first before =>
      obtain ⟨hfirst, hordered⟩ := List.pairwise_cons.1 h.ordered
      have hholds := (hbefore first (by simp)).2
      have hstart : j ≤ first.span.start.offset := hright first (by simp)
      rcases List.mem_cons.1 ht with rfl | ht
      · have heq : t.span.start.offset = j := Nat.le_antisymm hle hstart
        have htoken : t = s.lexemeToken j c ds := by
          rw [← heq] at hdrop ⊢
          exact hholds.eq_lexemeToken hdrop
        subst htoken
        refine ⟨_, rfl, ⟨before, rfl, fun u hu => hbefore u (List.mem_cons_of_mem _ hu)⟩,
          hfirst, hordered, fun i d hi hd hfree => ?_⟩
        refine h.covered i d (by omega) hd (List.forall_mem_cons.2 ⟨fun hin => ?_, hfree⟩)
        exact absurd hin.2 (Nat.not_lt_of_le hi)
      · have hafter := hfirst t ht
        have hpos := hholds.lt
        omega
  · rintro ⟨us, rfl, h⟩
    obtain ⟨before, rfl, hbefore⟩ := h.ended
    refine ⟨⟨_ :: before, rfl, List.forall_mem_cons.2 ⟨⟨?_, hnew⟩, hbefore⟩⟩, ?_, ?_, ?_⟩
    · exact lexeme_kind_ne_endOfText c ds
    · refine List.forall_mem_cons.2 ⟨hkj, fun t ht => ?_⟩
      have hle := h.behind t ht
      omega
    · exact List.pairwise_cons.2 ⟨h.behind, h.ordered⟩
    · intro i d hi hd hfree
      obtain ⟨hfirst, hrest⟩ := List.forall_mem_cons.1 hfree
      rcases Nat.lt_or_ge i j with hlt | hge
      · exact hblank i hi hlt d hd
      · have hbehind : j + (lexeme c ds).text.length ≤ i :=
          Nat.le_of_not_lt fun hlt => hfirst ⟨hge, hlt⟩
        exact h.covered i d hbehind hd hrest

theorem cursor_next_end {j : Nat} (hskip : (s.cursor k).skipBlanks = s.cursor j)
    (hj : j = s.chars.length) : (s.cursor k).next.1 = s.endToken := by
  subst hj
  rw [Cursor.next, hskip]
  simp only [cursor, List.drop_length]
  rfl

theorem cursor_next_lexeme {j : Nat} (hskip : (s.cursor k).skipBlanks = s.cursor j)
    (hj : j ≤ s.chars.length) (hdrop : s.chars.drop j = c :: ds) :
    (s.cursor k).next = (s.lexemeToken j c ds, s.cursor (j + (lexeme c ds).text.length)) := by
  have happend := hdrop
  rw [← lexeme_append c ds] at happend
  rw [Cursor.next, hskip]
  simp only [cursor, hdrop, place_add hj happend, drop_add_of_drop happend]
  rfl

theorem tokenization_iff_within {n : Nat} (hk : k ≤ s.chars.length) (hbreak : IsBreak s.chars k)
    (hn : (s.cursor k).rest.length < n) :
    s.Tokenization k ts ↔ ts = (s.cursor k).tokensWithin n := by
  induction n generalizing k ts with
  | zero => exact absurd hn (Nat.not_lt_zero _)
  | succ n ih =>
    obtain ⟨j, hkj, hj, hskip, hblank, hnext⟩ := exists_skipBlanks hk
    rw [Cursor.tokensWithin]
    cases hdrop : s.chars.drop j with
    | nil =>
      have hlength := List.drop_eq_nil_iff.1 hdrop
      have hend : j = s.chars.length := Nat.le_antisymm hj hlength
      rw [if_pos (by rw [hskip]; exact hdrop), cursor_next_end hskip hend]
      refine tokenization_end (fun i c hi hc => hblank i hi ?_ c hc) hk
      exact Nat.lt_of_lt_of_le (List.getElem?_eq_some_iff.1 hc).1 hlength
    | cons c ds =>
      have hne : (s.cursor k).skipBlanks.rest ≠ [] := by
        rw [hskip, cursor, hdrop]
        exact List.cons_ne_nil _ _
      have hshorter := Cursor.next_rest_length hne
      have hbreak' : IsBreak s.chars j := by
        rcases Nat.eq_or_lt_of_le hkj with rfl | hlt
        · exact hbreak
        · refine .of_last fun d hd => isBlank_not_wordChar ?_
          exact hblank (j - 1) (by omega) (by omega) d hd
      have hle : j + (lexeme c ds).text.length ≤ s.chars.length :=
        add_length_le_of_drop (hdrop.trans (lexeme_append c ds).symm) hj
      rw [if_neg hne, tokenization_cons hkj hbreak' hblank hdrop (hnext c (getElem?_of_drop hdrop))]
      rw [cursor_next_lexeme hskip hj hdrop] at hshorter ⊢
      have hrest : ∀ us, s.Tokenization (j + (lexeme c ds).text.length) us ↔
          us = (s.cursor (j + (lexeme c ds).text.length)).tokensWithin n :=
        fun _ => ih hle (hbreak'.past_lexeme hdrop) (Nat.lt_of_lt_of_le hshorter (by omega))
      simp only [hrest, exists_eq_right]

theorem tokens_eq_within (s : Source) :
    s.tokens = (s.cursor 0).tokensWithin (s.chars.length + 1) :=
  Cursor.collect_eq_tokensWithin #[] _ (Nat.lt_succ_self _)

/-- The tokens that scanning gives are those of the source. -/
theorem tokenization_tokens (s : Source) : s.Tokenization 0 s.tokens :=
  (tokenization_iff_within (Nat.zero_le _) isBreak_zero (Nat.lt_succ_self _)).2 s.tokens_eq_within

/-- **What the tokens of a source are**: scanning gives the one list of tokens that stand in the
text as lexemes, in order, with only blanks between them, and end with the end of the text. -/
theorem tokenization_iff (s : Source) (ts : List Token) : s.Tokenization 0 ts ↔ ts = s.tokens := by
  rw [tokens_eq_within]
  exact tokenization_iff_within (Nat.zero_le _) isBreak_zero (Nat.lt_succ_self _)

-- a text may hold the character of number zero: it is of no kind, and not the end
example : (tokens { text := String.ofList ['1', Char.ofNat 0, 'a'] }).map Token.bare =
    [(.integer, "1"), (.illegal, String.ofList [Char.ofNat 0]), (.identifier, "a"),
      (.endOfText, "")] := by
  rw [tokens_ofList _ (Nat.lt_succ_self _)]
  decide

/-- A token stands in the file of its source. -/
theorem file_of_mem_tokens (ht : t ∈ s.tokens) : t.span.start.file = s.file := by
  obtain ⟨before, he, hbefore⟩ := s.tokenization_tokens.ended
  rw [he, List.mem_append, List.mem_singleton] at ht
  rcases ht with ht | rfl
  · rw [(hbefore t ht).2.start]
    rfl
  · rfl

end Source

end Ember

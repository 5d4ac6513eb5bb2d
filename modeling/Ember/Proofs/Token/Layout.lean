import Ember.Proofs.Token.Pieces

/-!
# Layout

Blanks only separate tokens. Where two texts hold the same lexemes in the same order, with
blanks around them, and blanks that separate two lexemes in the one text are not taken away in
the other, both are lexed to the same tokens up to their places (`Source.Relaid.tokens`).
-/

namespace Ember

open Text

variable {c : Char} {cs cs' rest : List Char}

/-! ## Characters that separate -/

/-- No range of blanks meets one of letters. -/
theorem blank_ranges_no_letter :
    ∀ b ∈ blankRanges, ∀ l ∈ letterRanges, b.2 < l.1 ∨ l.2 < b.1 := by
  decide +kernel

/-- A blank is no letter. -/
theorem isBlank_not_letter (hc : isBlank c = true) : isLetter c = false := by
  obtain ⟨b, hb, hlow, hhigh⟩ := inRanges_iff.1 hc
  unfold isLetter
  split
  · next hascii =>
    -- the blanks of ASCII stand below its letters
    have hsmall : c.toNat ≤ 32 := by
      have hranges : ∀ b ∈ blankRanges, b.2 ≤ 32 ∨ 128 ≤ b.1 := by decide
      rcases hranges b hb with h | h <;> omega
    have hlist : ∀ n ≤ 32, (Char.ofNat n).isAlpha = false := by decide
    have halpha := hlist c.toNat hsmall
    rwa [Char.ofNat_toNat] at halpha
  · refine Bool.eq_false_iff.2 fun hl => ?_
    obtain ⟨l, hl, hlow', hhigh'⟩ := inRanges_iff.1 hl
    rcases blank_ranges_no_letter b hb l hl with h | h <;> omega

theorem isBlank_not_digit (hc : isBlank c = true) : isDigit c = false := by
  refine Bool.eq_false_iff.2 fun hd => ?_
  rw [isDigit_not_blank hd] at hc
  cases hc

/-- A blank ends a word. -/
theorem isBlank_not_wordChar (hc : isBlank c = true) : isWordChar c = false := by
  rw [isWordChar, isBlank_not_letter hc, isBlank_not_digit hc, Bool.false_or]

/-- The text is empty or starts with a blank. -/
abbrev Opens (cs : List Char) : Prop :=
  ∀ c ∈ cs.head?, isBlank c = true

/-! ## Lexemes in front of another text -/

/-- What may stand behind a lexeme in the place of `rest`: a text that starts in the same
way, or with a blank, or none. -/
def CouldFollow (rest rest' : List Char) : Prop :=
  rest'.head? = rest.head? ∨ Opens rest'

/-- Other blanks in front of a rest keep apart what the rest was apart from. -/
theorem CouldFollow.apart {p : Char → Bool} {rest' : List Char} (h : CouldFollow rest rest')
    (hrest : Apart p rest) (hp : ∀ c, isBlank c = true → p c = false) : Apart p rest' := by
  intro d hd
  rcases h with he | ho
  · exact hrest d (he ▸ hd)
  · exact hp d (ho d hd)

theorem apart_dropWhile (p : Char → Bool) (cs : List Char) : Apart p (cs.dropWhile p) := by
  intro d hd
  have hhead := List.head?_dropWhile_not p cs
  rw [Option.mem_def.1 hd] at hhead
  exact hhead

/-- A text starts with as many characters of `p` as there are. -/
theorem exists_span (p : Char → Bool) (cs : List Char) :
    ∃ ds rest, cs = ds ++ rest ∧ (∀ d ∈ ds, p d = true) ∧ Apart p rest :=
  ⟨cs.takeWhile p, cs.dropWhile p, List.takeWhile_append_dropWhile.symm,
    List.all_eq_true.1 List.all_takeWhile, apart_dropWhile p cs⟩

/-- **A lexeme does not depend on what follows it**, as long as that could follow it. -/
theorem lexeme_of_couldFollow {rest' : List Char} (h : CouldFollow (lexeme c cs).rest rest') :
    lexeme c ((lexeme c cs).text.tail ++ rest') = { lexeme c cs with rest := rest' } := by
  by_cases hd : isDigit c = true
  · obtain ⟨ds, rest, rfl, hds, hrest⟩ := exists_span isDigit cs
    rw [lexeme_digits hd hds hrest] at h ⊢
    exact lexeme_digits hd hds (h.apart hrest fun _ => isBlank_not_digit)
  rw [Bool.not_eq_true] at hd
  by_cases hl : isLetter c = true
  · obtain ⟨ds, rest, rfl, hds, hrest⟩ := exists_span isWordChar cs
    rw [lexeme_word hd hl hds hrest] at h ⊢
    exact lexeme_word hd hl hds (h.apart hrest fun _ => isBlank_not_wordChar)
  rw [Bool.not_eq_true] at hl
  cases hx : extensibleKinds c with
  | none =>
    have he : lexeme c cs = ⟨singleKind c, [c], cs⟩ := lexeme_single hd hl hx
    rw [he]
    exact lexeme_single hd hl hx
  | some kinds =>
    by_cases he : cs.head? = some '='
    · obtain ⟨rest, rfl⟩ : ∃ rest, cs = '=' :: rest := List.head?_eq_some_iff.1 he
      rw [lexeme_extended hd hl hx]
      exact lexeme_extended hd hl hx
    · have halone := apart_equals he
      rw [lexeme_alone hd hl hx halone] at h ⊢
      refine lexeme_alone hd hl hx (h.apart halone fun d hd => ?_)
      refine decide_eq_false fun heq => ?_
      rw [heq] at hd
      revert hd
      decide

/-! ## Texts with the same lexemes -/

/-- Nothing but blanks. -/
abbrev Blanks (cs : List Char) : Prop :=
  ∀ c ∈ cs, isBlank c = true

instance (cs : List Char) : Decidable (Blanks cs) :=
  decidable_of_iff (cs.all isBlank = true) List.all_eq_true

/-- Both texts are made of the texts of the tokens, in order, with blanks in front of each and
behind the last. Where there are blanks in front of a token in the first text there are some
in the second; there may be others, and there may be some where there were none. -/
inductive Relaid : List (Kind × String) → List Char → List Char → Prop
  | done {gap gap' : List Char} : Blanks gap → Blanks gap' → Relaid [] gap gap'
  | token {gap gap' rest rest' : List Char} (b : Kind × String) {bs : List (Kind × String)} :
      Blanks gap → Blanks gap' → (gap ≠ [] → gap' ≠ []) → Relaid bs rest rest' →
      Relaid (b :: bs) (gap ++ (b.2.toList ++ rest)) (gap' ++ (b.2.toList ++ rest'))

variable {b : Kind × String} {bs : List (Kind × String)}

/-- Blanks in front make no difference to the pieces. -/
theorem pieces_blanks {gap : List Char} (hgap : Blanks gap) (cs : List Char) :
    pieces (gap ++ cs) = pieces cs := by
  induction gap with
  | nil => rfl
  | cons c gap ih =>
    obtain ⟨hc, hrest⟩ := List.forall_mem_cons.1 hgap
    rw [List.cons_append, pieces_blank hc, ih hrest]

/-- The text of a piece is not empty and starts with no blank. -/
theorem text_of_mem_pieces (h : b ∈ pieces cs) :
    ∃ c ds, isBlank c = false ∧ b.2.toList = c :: ds := by
  obtain ⟨c, ds, hc, rfl⟩ := mem_pieces h
  obtain ⟨es, he⟩ := lexeme_text_head c ds
  exact ⟨c, es, hc, by rw [String.toList_ofList, he]⟩

/-- The first piece of a text that starts with its characters is a lexeme, and the others are
the pieces behind it. -/
theorem lexeme_of_pieces (h : b :: bs = pieces (b.2.toList ++ rest)) :
    ∃ c cs, isBlank c = false ∧ b.2.toList = (lexeme c cs).text ∧ b.1 = (lexeme c cs).kind ∧
      (lexeme c cs).rest = rest ∧ bs = pieces rest := by
  obtain ⟨c, ds, hc, htext⟩ := text_of_mem_pieces (h ▸ List.mem_cons_self ..)
  have hcs : b.2.toList ++ rest = c :: (ds ++ rest) := by rw [htext, List.cons_append]
  rw [hcs, pieces_cons hc] at h
  obtain ⟨hb, hbs⟩ := List.cons.inj h
  have hlist : b.2.toList = (lexeme c (ds ++ rest)).text := by
    rw [hb, String.toList_ofList]
  have hrest : (lexeme c (ds ++ rest)).rest = rest := by
    have happ := lexeme_append c (ds ++ rest)
    rw [← hlist, ← hcs] at happ
    exact List.append_cancel_left happ
  exact ⟨c, ds ++ rest, hc, hlist, congrArg Prod.fst hb, hrest, by rw [hbs, hrest]⟩

/-- What follows a token in the second text could follow it in the first. -/
theorem Relaid.couldFollow (h : Relaid bs cs cs') (hbs : bs = pieces cs) : CouldFollow cs cs' := by
  cases h with
  | done _ hgap' => exact .inr fun d hd => hgap' d (List.mem_of_mem_head? hd)
  | @token gap gap' rest rest' b bs hgap hgap' hkeep _ =>
    cases gap' with
    | cons c gap' => exact .inr fun d hd => hgap' d (by cases hd; exact List.mem_cons_self ..)
    | nil =>
      -- then there was no blank before either, and both texts start with the token
      have hnil : gap = [] := Decidable.not_not.1 fun hne => hkeep hne rfl
      obtain ⟨c, ds, -, htext⟩ := text_of_mem_pieces (hbs ▸ List.mem_cons_self ..)
      exact .inl (by rw [hnil, htext]; rfl)

/-- **Layout does not change what a text is lexed to.** -/
theorem Relaid.pieces (h : Relaid bs cs cs') (hbs : bs = pieces cs) : bs = pieces cs' := by
  induction h with
  | @done gap gap' hgap hgap' =>
    rw [← List.append_nil gap', pieces_blanks hgap', pieces_nil]
  | @token gap gap' rest rest' b bs hgap hgap' hkeep hrest ih =>
    rw [pieces_blanks hgap] at hbs
    rw [pieces_blanks hgap']
    obtain ⟨c, ds, hc, htext, hkind, hlex, hmore⟩ := lexeme_of_pieces hbs
    have hcould : CouldFollow (lexeme c ds).rest rest' := hlex ▸ hrest.couldFollow hmore
    obtain ⟨es, he⟩ := lexeme_text_head c ds
    have hlexeme := lexeme_of_couldFollow hcould
    rw [he, List.tail_cons] at hlexeme
    rw [htext, he, List.cons_append, pieces_cons hc, hlexeme, ← ih hmore, ← htext,
      String.ofList_toList, ← hkind]

theorem Relaid.cons_blank {c : Char} (h : Relaid bs cs cs') (hc : isBlank c = true) :
    Relaid bs (c :: cs) (c :: cs') := by
  cases h with
  | done hgap hgap' =>
    exact .done (List.forall_mem_cons.2 ⟨hc, hgap⟩) (List.forall_mem_cons.2 ⟨hc, hgap'⟩)
  | token b hgap hgap' _ hrest =>
    exact .token b (List.forall_mem_cons.2 ⟨hc, hgap⟩) (List.forall_mem_cons.2 ⟨hc, hgap'⟩)
      (fun _ => List.cons_ne_nil _ _) hrest

/-- Every text is made of its pieces and blanks. -/
theorem relaid_pieces (cs : List Char) : Relaid (pieces cs) cs cs := by
  fun_induction Ember.pieces cs with
  | case1 => exact .done (List.forall_mem_nil _) (List.forall_mem_nil _)
  | case2 c cs hc ih => exact ih.cons_blank hc
  | case3 c cs hc ih =>
    have htext : c :: cs =
        [] ++ ((String.ofList (lexeme c cs).text).toList ++ (lexeme c cs).rest) := by
      rw [List.nil_append, String.toList_ofList, lexeme_append]
    rw [htext]
    exact .token ((lexeme c cs).kind, String.ofList (lexeme c cs).text)
      (List.forall_mem_nil _) (List.forall_mem_nil _) id ih

/-! ## Texts one behind the other -/

/-- A text without pieces in front makes no difference to the pieces. -/
theorem pieces_append_of_none (h : Ember.pieces cs = []) (rest : List Char) :
    Ember.pieces (cs ++ rest) = Ember.pieces rest := by
  fun_induction Ember.pieces cs with
  | case1 => rfl
  | case2 c cs hc ih => rw [List.cons_append, pieces_blank hc, ih h]
  | case3 => cases h

/-- A semicolon is a token, whatever follows. -/
theorem lexeme_semicolon (cs : List Char) : lexeme ';' cs = ⟨.semicolon, [';'], cs⟩ :=
  lexeme_single (by decide) (by decide) (by decide)

/-- Nothing but its character is lexed to a semicolon. -/
theorem eq_semicolon (h : (lexeme c cs).kind = .semicolon) : c = ';' := by
  have hkind : (lexeme c cs).kind.spelling? = some ";" := by rw [h]; rfl
  have hspelled : String.ofList (lexeme c cs).text = String.ofList [';'] := lexeme_spelling hkind
  obtain ⟨ds, he⟩ := lexeme_text_head c cs
  rw [he, String.ofList_inj] at hspelled
  exact (List.cons.inj hspelled).1

/-- **A text that ends in a semicolon goes on with the pieces of what is behind it.** -/
theorem pieces_append_of_semicolon {bs : List (Kind × String)}
    (h : Ember.pieces cs = bs ++ [(.semicolon, ";")]) (rest : List Char) :
    Ember.pieces (cs ++ rest) = Ember.pieces cs ++ Ember.pieces rest := by
  fun_induction Ember.pieces cs generalizing bs with
  | case1 => simp at h
  | case2 c cs hc ih => rw [List.cons_append, pieces_blank hc, ih h]
  | case3 c cs hc ih =>
    rw [Bool.not_eq_true] at hc
    rw [List.cons_append, pieces_cons hc]
    cases bs with
    | nil =>
      obtain ⟨hb, hrest⟩ := List.cons.inj h
      obtain rfl := eq_semicolon (congrArg Prod.fst hb)
      rw [lexeme_semicolon] at hrest ⊢
      rw [lexeme_semicolon, pieces_append_of_none hrest, hrest]
      rfl
    | cons b bs =>
      obtain ⟨-, hrest⟩ := List.cons.inj h
      -- a text that has a piece goes on as it started
      have hne : (lexeme c cs).rest ≠ [] := fun hnil => by
        rw [hnil, pieces_nil] at hrest
        simp at hrest
      have hcould : CouldFollow (lexeme c cs).rest ((lexeme c cs).rest ++ rest) :=
        .inl (by rw [List.head?_append, List.head?_eq_some_head hne]; rfl)
      have hsplit : cs ++ rest =
          (lexeme c cs).text.tail ++ ((lexeme c cs).rest ++ rest) := by
        obtain ⟨ds, he⟩ := lexeme_text_head c cs
        have happ := lexeme_append c cs
        rw [he, List.cons_append] at happ
        rw [he, List.tail_cons, ← List.append_assoc, (List.cons.inj happ).2]
      rw [hsplit, lexeme_of_couldFollow hcould, ih hrest]
      rfl

/-- **The second source is the first with other blanks** in front of its tokens and behind the
last: those that separate two tokens may be replaced by others but not taken away, and there
may be new ones anywhere between tokens. At both ends of the text blanks come and go freely. -/
def Source.Relaid (s s' : Source) : Prop :=
  ∃ lead lead' body body', Blanks lead ∧ Blanks lead' ∧ s.text.toList = lead ++ body ∧
    s'.text.toList = lead' ++ body' ∧
    Ember.Relaid (s.programTokens.map Token.bare) body body'

theorem Source.relaid_self (s : Source) : s.Relaid s :=
  ⟨[], [], s.text.toList, s.text.toList, nofun, nofun, rfl, rfl,
    s.programTokens_bare ▸ relaid_pieces _⟩

/-- **Relaid sources have the same tokens**, places aside. -/
theorem Source.Relaid.tokens {s s' : Source} (h : s.Relaid s') :
    s.tokens.map Token.bare = s'.tokens.map Token.bare := by
  obtain ⟨lead, lead', body, body', hlead, hlead', hs, hs', hrelaid⟩ := h
  rw [s.programTokens_bare, hs, pieces_blanks hlead] at hrelaid
  rw [s.tokens_bare, s'.tokens_bare, hs, hs', pieces_blanks hlead, pieces_blanks hlead',
    hrelaid.pieces rfl]

end Ember

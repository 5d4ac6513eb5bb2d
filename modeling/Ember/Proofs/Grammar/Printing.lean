import Ember.Proofs.Grammar.Printed
import Ember.Proofs.Grammar.Whole
import Ember.Proofs.Token.Pieces

/-!
# Printed trees are lexed to their tokens

The text of a tree that was written by tokens of a source is lexed to tokens that `Prints`
allows (`Writes.printing`). Names and keywords are printed apart from each other, and
operators apart from equals signs. The semicolons that a loop takes from its clauses are
those of the clauses, since no expression ends with one.
-/

namespace Ember

open Text

variable {cs ds : List Char} {Q : List Token → Prop} {t : Token} {span : Option Span}

/-! ## Marks, keywords and operators -/

/-- The characters that are tokens whatever follows. -/
def marks : List Char := ['+', '-', '*', '/', ',', ';', '(', ')', '\x7b', '\x7d']

/-- The listed characters are tokens by themselves. -/
theorem isMark_of_mem {c : Char} (h : c ∈ marks) : IsMark c ∧ extensibleKinds c = none := by
  have hall : (marks.all fun c =>
      !isBlank c && !isDigit c && !isLetter c && (extensibleKinds c).isNone) = true := by
    decide
  have hc := List.all_eq_true.1 hall c h
  simp only [Bool.and_eq_true, Bool.not_eq_true', Option.isNone_iff_eq_none] at hc
  obtain ⟨⟨⟨hb, hd⟩, hl⟩, hx⟩ := hc
  exact ⟨⟨hb, hd, hl⟩, hx⟩

/-- A mark in front is one more token. -/
theorem Spells.mark {p : Char → Bool} (h : Spells p ds Q) {c : Char} (hc : c ∈ marks) :
    Spells p (c :: ds) fun ts => ∃ t us, ts = t :: us ∧ t.kind = singleKind c ∧ Q us := by
  obtain ⟨hm, hx⟩ := isMark_of_mem hc
  refine (Spells.single hm hx h).mono ?_
  rintro _ ⟨t, us, rfl, ht, hus⟩
  exact ⟨t, us, rfl, (Prod.mk.inj ht).1, hus⟩

/-- The words that are keywords. -/
def keywords : List String := ["let", "function", "if", "else", "for", "while"]

/-- Every keyword is a word. -/
theorem isWord_of_mem {w : String} (h : w ∈ keywords) : IsWord w.toList := by
  have hall : (keywords.all fun w => !w.toList.isEmpty &&
      (w.toList.head?.all fun c => !isBlank c && !isDigit c && isLetter c) &&
      w.toList.tail.all isWordChar) = true := by
    decide +kernel
  have hw := List.all_eq_true.1 hall w h
  simp only [Bool.and_eq_true, Bool.not_eq_true', Option.all_eq_true, List.all_eq_true,
    List.isEmpty_eq_false_iff] at hw
  obtain ⟨⟨hne, hhead⟩, htail⟩ := hw
  exact ⟨hne, fun c hc => (hhead c hc).1.1, fun c hc => (hhead c hc).1.2,
    fun c hc => (hhead c hc).2, htail⟩

/-- A keyword in front of something that goes on with no word is one more token. -/
theorem Spells.keyword (h : Spells isWordChar ds Q) {w : String} (hw : w ∈ keywords)
    (hd : Apart isWordChar ds) :
    Spells isWordChar (w.toList ++ ds) fun ts =>
      ∃ t us, ts = t :: us ∧ t.kind = Kind.ofWord w ∧ Q us := by
  refine (h.word (isWord_of_mem hw) hd).mono ?_
  rintro _ ⟨t, us, rfl, ht, hus⟩
  exact ⟨t, us, rfl, by rw [(Prod.mk.inj ht).1, String.ofList_toList], hus⟩

/-- A sign in front of an operand. -/
theorem Spells.sign {p : Char → Bool} (h : Spells p ds Q) {k : Kind} {text : String}
    (hk : k = .bang ∨ k = .minus) (ht : k.spelling? = some text) (hne : ds ≠ [])
    (hd : Apart (· = '=') ds) :
    Spells p (text.toList ++ ds) fun ts => ∃ t us, ts = t :: us ∧ t.bare = (k, text) ∧ Q us := by
  obtain ⟨d, ds, rfl⟩ := List.exists_cons_of_ne_nil hne
  refine h.piece fun rest _ => ?_
  rcases hk with rfl | rfl <;> cases ht
  · exact pieces_alone (c := '!') ⟨by decide, by decide, by decide⟩ rfl hd
  · exact pieces_single (c := '-') ⟨by decide, by decide, by decide⟩ rfl

/-- An operator with blanks around it. -/
theorem Spells.operator {p : Char → Bool} (h : Spells p ds Q) {k : Kind} {text : String}
    (hk : k.isInfix) (ht : k.spelling? = some text) :
    Spells p (' ' :: (text.toList ++ ' ' :: ds)) fun ts =>
      ∃ t us, ts = t :: us ∧ t.bare = (k, text) ∧ Q us := by
  refine .blank (by decide) ((h.blank (c := ' ') (by decide)).piece fun rest _ => ?_)
  have hspace : Apart (· = '=') (' ' :: (ds ++ rest)) := fun c hc => by cases hc; rfl
  cases k <;> cases hk <;> cases ht
  · exact pieces_single (c := '+') ⟨by decide, by decide, by decide⟩ rfl
  · exact pieces_single (c := '-') ⟨by decide, by decide, by decide⟩ rfl
  · exact pieces_single (c := '*') ⟨by decide, by decide, by decide⟩ rfl
  · exact pieces_single (c := '/') ⟨by decide, by decide, by decide⟩ rfl
  · exact pieces_alone (c := '<') ⟨by decide, by decide, by decide⟩ rfl hspace
  · exact pieces_alone (c := '>') ⟨by decide, by decide, by decide⟩ rfl hspace
  · exact pieces_extended (c := '<') ⟨by decide, by decide, by decide⟩ rfl
  · exact pieces_extended (c := '>') ⟨by decide, by decide, by decide⟩ rfl
  · exact pieces_extended (c := '=') ⟨by decide, by decide, by decide⟩ rfl
  · exact pieces_extended (c := '!') ⟨by decide, by decide, by decide⟩ rfl

/-- An equals sign with blanks around it is one more token. -/
theorem Spells.assign {p : Char → Bool} (h : Spells p ds Q) :
    Spells p (' ' :: '=' :: ' ' :: ds)
      fun ts => ∃ t us, ts = t :: us ∧ t.kind = .assign ∧ Q us := by
  have hpiece : Spells p ('=' :: ' ' :: ds) fun ts =>
      ∃ t us, ts = t :: us ∧ t.bare = (.assign, "=") ∧ Q us := by
    refine (h.blank (c := ' ') (by decide)).piece fun rest _ => ?_
    exact pieces_alone (c := '=') ⟨by decide, by decide, by decide⟩ rfl
      fun c hc => by cases hc; rfl
  refine (hpiece.blank (by decide)).mono ?_
  rintro _ ⟨t, us, rfl, ht, hus⟩
  exact ⟨t, us, rfl, (Prod.mk.inj ht).1, hus⟩

/-! ## Texts in a row -/

theorem apart_cons {p : Char → Bool} {c : Char} (hc : p c = false) : Apart p (c :: cs) :=
  fun _ hd => Option.some.inj hd ▸ hc

/-- No word goes on with a mark. -/
theorem apart_mark {c : Char} (hc : c ∈ marks) : Apart isWordChar (c :: cs) := by
  obtain ⟨hm, -⟩ := isMark_of_mem hc
  exact apart_cons (by rw [isWordChar, hm.letter, hm.digit]; rfl)

variable {R : List Token → Prop}

/-- Two texts with a mark between them. -/
theorem Spells.append_mark (h₁ : Spells isWordChar cs Q) {c : Char} (hc : c ∈ marks)
    (h₂ : Spells isWordChar ds R) :
    Spells isWordChar (cs ++ c :: ds) fun ts =>
      ∃ us t vs, ts = us ++ t :: vs ∧ Q us ∧ t.kind = singleKind c ∧ R vs := by
  refine (h₁.append (h₂.mark hc) (apart_mark hc)).mono ?_
  rintro _ ⟨us, _, rfl, hus, t, vs, rfl, ht, hvs⟩
  exact ⟨us, t, vs, rfl, hus, ht, hvs⟩

/-- A text with a mark behind it. -/
theorem Spells.concat_mark (h : Spells isWordChar cs Q) {c : Char} (hc : c ∈ marks) :
    Spells isWordChar (cs ++ [c])
      fun ts => ∃ us t, ts = us ++ [t] ∧ Q us ∧ t.kind = singleKind c := by
  refine (h.append_mark hc .nil).mono ?_
  rintro _ ⟨us, t, _, rfl, hus, ht, rfl⟩
  exact ⟨us, t, rfl, hus, ht⟩

/-- A keyword, a text in parentheses and another one. -/
theorem Spells.headed {w : String} (hw : w ∈ keywords) (h₁ : Spells isWordChar cs Q)
    (h₂ : Spells isWordChar ds R) :
    Spells isWordChar (w.toList ++ ' ' :: '(' :: (cs ++ ')' :: ' ' :: ds)) fun ts =>
      ∃ i o us c vs, ts = i :: o :: (us ++ c :: vs) ∧ i.kind = Kind.ofWord w ∧
        o.kind = .leftParen ∧ Q us ∧ c.kind = .rightParen ∧ R vs := by
  have hbody := h₁.append_mark (c := ')') (by decide) (h₂.blank (c := ' ') (by decide))
  have hhead := (hbody.mark (c := '(') (by decide)).blank (c := ' ') (by decide)
  refine (hhead.keyword hw (apart_cons (by decide))).mono ?_
  rintro _ ⟨i, _, rfl, hi, o, _, rfl, ho, us, c, vs, rfl, hus, hc, hvs⟩
  exact ⟨i, o, us, c, vs, rfl, hi, ho, hus, hc, hvs⟩

/-! ## Expressions -/

/-- The text of an expression is lexed to its tokens. It may stand between an operator and a
semicolon. -/
structure Node.Spelled (e : Node) : Prop where
  first : ∃ c cs, e.print.toList = c :: cs ∧ c ≠ '='
  last : ∃ cs c, e.print.toList = cs ++ [c] ∧ c ≠ ';'
  spells : ∀ least, Spells isWordChar e.print.toList (Prints (.expression least e))

/-- The text of a block is lexed to its tokens. It ends with a brace. -/
structure Node.BlockSpelled (n : Node) : Prop where
  last : ∃ cs, n.print.toList = cs ++ ['\x7d']
  spells : Spells isWordChar n.print.toList (Prints (.block n))
  present : n.isMissing = false

variable {e left right condition consequence alternative body : Node} {es ns : List Node}

/-- A name. -/
theorem Spells.name (hl : t.Lexed) (ht : t.kind = .identifier) :
    Spells isWordChar t.text.toList fun ts => ∃ u, ts = [u] ∧ u.IsName ∧ u.text = t.text := by
  obtain ⟨hword, hkind⟩ := hl.word ht
  have h := Spells.word hword .nil (fun c hc => by cases hc)
  rw [List.append_nil, String.ofList_toList, hkind] at h
  refine h.mono ?_
  rintro _ ⟨u, _, rfl, hu, rfl⟩
  obtain ⟨huk, hut⟩ : u.kind = .identifier ∧ u.text = t.text := Prod.mk.inj hu
  obtain ⟨c, cs, hcs⟩ := List.exists_cons_of_ne_nil hword.ne_nil
  refine ⟨u, rfl, ⟨huk, c, cs, hut ▸ hcs, ?_⟩, hut⟩
  rintro rfl
  exact absurd (hword.all_mem (hcs ▸ List.mem_cons_self ..)) (by decide)

/-- The text of a name is lexed to a name. -/
theorem spelled_identifier (ht : t.kind = .identifier) (hl : t.Lexed) :
    (Node.identifier span t.text).Spelled := by
  obtain ⟨hword, -⟩ := hl.word ht
  have hne : ∀ d ∈ t.text.toList, d ≠ '=' ∧ d ≠ ';' := fun d hd => by
    have := hword.all_mem hd
    constructor <;> · rintro rfl; exact absurd this (by decide)
  refine ⟨?_, ?_, fun least => (Spells.name hl ht).mono ?_⟩
  · obtain ⟨c, cs, hcs⟩ := List.exists_cons_of_ne_nil hword.ne_nil
    exact ⟨c, cs, hcs, (hne c (hcs ▸ List.mem_cons_self ..)).1⟩
  · refine ⟨_, _, (List.dropLast_concat_getLast hword.ne_nil).symm, ?_⟩
    exact (hne _ (List.getLast_mem hword.ne_nil)).2
  · rintro _ ⟨u, rfl, hname, hut⟩
    exact hut ▸ .identifier hname

/-- The digits of an integer are lexed to a literal of the same value. -/
theorem spelled_integer (ht : t.kind = .integer) (hl : t.Lexed) (hlen : t.text.length ≤ maxDigits) :
    (Node.integer span (digitsValue t.text.toList)).Spelled := by
  obtain ⟨hne, hdigits⟩ := hl.digits ht
  have hprint : (Node.integer span (digitsValue t.text.toList)).print.toList =
      Nat.toDigits 10 (digitsValue t.text.toList) := toList_toString _
  have hall : ∀ d ∈ Nat.toDigits 10 (digitsValue t.text.toList), d ≠ '=' ∧ d ≠ ';' := fun d hd => by
    have := isDigit_of_mem_toDigits hd
    constructor <;> · rintro rfl; exact absurd this (by decide)
  have hnil : Nat.toDigits 10 (digitsValue t.text.toList) ≠ [] := Nat.toDigits_ne_nil
  refine ⟨?_, ?_, fun least => ?_⟩ <;> rw [hprint]
  · obtain ⟨c, cs, hcs⟩ := List.exists_cons_of_ne_nil hnil
    exact ⟨c, cs, hcs, (hall c (hcs ▸ List.mem_cons_self ..)).1⟩
  · refine ⟨_, _, (List.dropLast_concat_getLast hnil).symm, ?_⟩
    exact (hall _ (List.getLast_mem hnil)).2
  · have hword : ∀ c, isDigit c = true → isWordChar c = true := fun c hc => by
      rw [isWordChar, hc, Bool.or_true]
    refine (Spells.digits hnil (fun _ => isDigit_of_mem_toDigits) hword).mono ?_
    rintro _ ⟨u, rfl, hu⟩
    obtain ⟨huk, hut⟩ := Prod.mk.inj hu
    have htext : u.text.toList = Nat.toDigits 10 (digitsValue t.text.toList) := by
      rw [hut, String.toList_ofList]
    refine .integer huk ?_ (by rw [htext, digitsValue_toDigits])
    rw [← String.length_toList, htext]
    rw [← String.length_toList] at hlen
    exact Nat.le_trans (length_toDigits_le hne hdigits) hlen

/-- A sign is printed in front of its operand, in parentheses. -/
theorem Node.Spelled.unary (h : e.Spelled) (ht : t.kind = .bang ∨ t.kind = .minus) (hl : t.Lexed) :
    (Node.unary span t.text e).Spelled := by
  obtain ⟨text, htext⟩ : ∃ text, t.kind.spelling? = some text := by
    rcases ht with ht | ht <;> · rw [ht]; exact ⟨_, rfl⟩
  obtain ⟨c, cs, hprint, hc⟩ := h.first
  refine ⟨⟨_, _, Node.toList_print_unary .., by decide⟩,
    ⟨'(' :: (t.text.toList ++ e.print.toList), ')', by simp [Node.toList_print_unary], by decide⟩,
    fun least => ?_⟩
  have hbody := (h.spells signPrecedence).concat_mark (c := ')') (by decide)
  have hsign := hbody.sign ht htext (by simp)
    (by rw [hprint]; exact apart_cons (decide_eq_false hc))
  rw [Node.toList_print_unary, hl.spelled text htext]
  refine (hsign.mark (c := '(') (by decide)).mono ?_
  rintro _ ⟨o, _, rfl, ho, u, _, rfl, hu, ts, c', rfl, hts, hc'⟩
  obtain ⟨huk, hut⟩ := Prod.mk.inj hu
  exact hut ▸ .unary ho (huk ▸ ht) hts hc'

/-- An operator is printed between its operands, in parentheses. -/
theorem Node.Spelled.binary {op : Token} (h₁ : left.Spelled) (hop : op.kind.isInfix)
    (hl : op.Lexed) (h₂ : right.Spelled) : (Node.binary span left op.text right).Spelled := by
  obtain ⟨text, -, htext⟩ := Kind.infix_spelling hop
  refine ⟨⟨_, _, Node.toList_print_binary .., by decide⟩,
    ⟨'(' :: (left.print.toList ++ ' ' :: (op.text.toList ++ ' ' :: right.print.toList)), ')',
      by simp [Node.toList_print_binary], by decide⟩, fun least => ?_⟩
  have hright := (h₂.spells (op.kind.strength + 1)).concat_mark (c := ')') (by decide)
  have hall := (h₁.spells op.kind.strength).append (hright.operator hop htext)
    (apart_cons (by decide))
  rw [Node.toList_print_binary, hl.spelled text htext]
  refine (hall.mark (c := '(') (by decide)).mono ?_
  rintro _ ⟨o, _, rfl, ho, ts, _, rfl, hts, u, _, rfl, hu, us, c, rfl, hus, hc⟩
  obtain ⟨huk, hut⟩ := Prod.mk.inj hu
  rw [← huk] at hts hus hop
  exact hut ▸ .binary ho hts hop hus hc

/-- The text of arguments is lexed to their tokens. -/
structure ArgumentsSpelled (es : List Node) : Prop where
  present : ∀ e ∈ es, e.isMissing = false
  spells : Spells isWordChar (printedList [',', ' '] es) (Prints (.arguments es))

/-- A call is printed as its callee and the arguments in parentheses. -/
theorem Node.Spelled.call (h : e.Spelled) (hs : ArgumentsSpelled es) :
    (Node.call span e es).Spelled := by
  have hp := hs.present
  obtain ⟨c, cs, hprint, hc⟩ := h.first
  refine ⟨⟨c, _, by rw [Node.toList_print_call e hp, hprint, List.cons_append], hc⟩,
    ⟨e.print.toList ++ '(' :: printedList [',', ' '] es, ')',
      by simp [Node.toList_print_call e hp], by decide⟩, fun least => ?_⟩
  rw [Node.toList_print_call e hp]
  refine ((h.spells calleePrecedence).append_mark (c := '(') (by decide)
    (hs.spells.concat_mark (c := ')') (by decide))).mono ?_
  rintro _ ⟨ts, o, _, rfl, hts, ho, us, c, rfl, hus, hc⟩
  exact .call hts ho hus hc

/-- Parameters are printed with commas between them. -/
theorem spells_names {names : List Name} {ps : List Token} (h : Names names ps)
    (hl : ∀ t ∈ ps, t.Lexed) :
    Spells isWordChar (", ".intercalate (names.map Name.text)).toList (Names names) := by
  induction h with
  | none => exact Spells.nil.mono fun ts hts => hts ▸ .none
  | @last t span ht =>
    rw [List.map_singleton, String.intercalate_singleton]
    refine (Spells.name (hl t (List.mem_singleton_self t)) ht).mono ?_
    rintro _ ⟨u, rfl, hu, hut⟩
    exact hut ▸ .last hu.kind
  | @next t c ts span name names ht _ _ ih =>
    obtain ⟨hlt, -, hlts⟩ : t.Lexed ∧ c.Lexed ∧ ∀ u ∈ ts, u.Lexed := by simpa using hl
    rw [List.map_cons, List.map_cons, String.intercalate_cons_cons, String.toList_append,
      String.toList_append, List.append_assoc]
    refine ((Spells.name hlt ht).append_mark (c := ',') (by decide)
      ((ih hlts).blank (c := ' ') (by decide))).mono ?_
    rintro _ ⟨_, c', us, rfl, ⟨u, rfl, hu, hut⟩, hc, hus⟩
    exact hut ▸ .next hu.kind hc hus

/-- A function is printed keyword, parameters and body in turn. -/
theorem Node.BlockSpelled.function (h : body.BlockSpelled) {names : List Name} {ps : List Token}
    (hps : Names names ps) (hl : ∀ t ∈ ps, t.Lexed) : (Node.function span names body).Spelled := by
  obtain ⟨cs, hlast⟩ := h.last
  refine ⟨⟨'f', _, Node.toList_print_function _ h.present, by decide⟩,
    ⟨"function".toList ++
        '(' :: ((", ".intercalate (names.map Name.text)).toList ++ ')' :: ' ' :: cs),
      '\x7d', by simp [Node.toList_print_function _ h.present, hlast], by decide⟩, fun least => ?_⟩
  rw [Node.toList_print_function _ h.present]
  have hbody := (spells_names hps hl).append_mark (c := ')') (by decide)
    (h.spells.blank (c := ' ') (by decide))
  refine ((hbody.mark (c := '(') (by decide)).keyword (w := "function") (by decide)
    (apart_mark (by decide))).mono ?_
  rintro _ ⟨f, _, rfl, hf, o, _, rfl, ho, ps', c, ts, rfl, hps', hc, hts⟩
  exact .function hf ho hps' hc hts

/-- A conditional without an alternative is printed condition first. -/
theorem Node.Spelled.ifOnly (h₁ : condition.Spelled) (h₂ : consequence.BlockSpelled) :
    (Node.conditional span condition consequence .missing).Spelled := by
  obtain ⟨cs, hlast⟩ := h₂.last
  refine ⟨⟨'i', _, Node.toList_print_ifOnly _ h₂.present, by decide⟩,
    ⟨"if".toList ++ ' ' :: '(' :: (condition.print.toList ++ ')' :: ' ' :: cs), '\x7d',
      by simp [Node.toList_print_ifOnly _ h₂.present, hlast], by decide⟩, fun least => ?_⟩
  rw [Node.toList_print_ifOnly _ h₂.present]
  refine (Spells.headed (w := "if") (by decide) (h₁.spells loosest) h₂.spells).mono ?_
  rintro _ ⟨i, o, ts, c, us, rfl, hi, ho, hts, hc, hus⟩
  exact .ifOnly hi ho hts hc hus

/-- A conditional with an alternative has it behind its keyword. -/
theorem Node.Spelled.ifElse (h₁ : condition.Spelled) (h₂ : consequence.BlockSpelled)
    (h₃ : alternative.BlockSpelled) :
    (Node.conditional span condition consequence alternative).Spelled := by
  obtain ⟨cs, hlast⟩ := h₃.last
  refine ⟨⟨'i', _, Node.toList_print_ifElse _ h₂.present h₃.present, by decide⟩,
    ⟨"if".toList ++ ' ' :: '(' :: (condition.print.toList ++ ')' :: ' ' ::
        (consequence.print.toList ++ ' ' :: ("else".toList ++ ' ' :: cs))), '\x7d',
      by simp [Node.toList_print_ifElse _ h₂.present h₃.present, hlast], by decide⟩,
    fun least => ?_⟩
  rw [Node.toList_print_ifElse _ h₂.present h₃.present]
  have helse := ((h₃.spells.blank (c := ' ') (by decide)).keyword (w := "else") (by decide)
    (apart_cons (by decide))).blank (c := ' ') (by decide)
  refine (Spells.headed (w := "if") (by decide) (h₁.spells loosest)
    (h₂.spells.append helse (apart_cons (by decide)))).mono ?_
  rintro _ ⟨i, o, ts, c, _, rfl, hi, ho, hts, hc, us, _, rfl, hus, e, vs, rfl, he, hvs⟩
  exact .ifElse hi ho hts hc hus he hvs

/-! ## Statements -/

/-- The text of a declaration or an assignment: its tokens, and a semicolon, which a loop
takes off. -/
structure Node.ClauseSpelled (n : Node) : Prop where
  text : ∃ cs, n.print.toList = cs ++ [';'] ∧ (dropSemicolons n.print).toList = cs ∧
    Spells isWordChar cs (Prints (.clause n))

/-- A declaration is printed without the semicolon behind it. -/
theorem Node.Spelled.declaration (h : e.Spelled) (ht : t.kind = .identifier) (hl : t.Lexed)
    {span₁ : Option Span} : (Node.declaration span ⟨t.text, span₁⟩ e).ClauseSpelled := by
  obtain ⟨cs, c, hlast, hc⟩ := h.last
  refine ⟨"let".toList ++ ' ' :: (t.text.toList ++ ' ' :: '=' :: ' ' :: e.print.toList),
    by simp [Node.toList_print_declaration], ?_, ?_⟩
  · have hprint : (Node.declaration span ⟨t.text, span₁⟩ e).print.toList =
        ("let".toList ++ ' ' :: (t.text.toList ++ ' ' :: '=' :: ' ' :: cs)) ++ [c] ++ [';'] := by
      simp [Node.toList_print_declaration, hlast]
    simp [Node.toList_dropSemicolons hprint hc, hlast]
  · have hvalue := (Spells.name hl ht).append (h.spells loosest).assign (apart_cons (by decide))
    refine ((hvalue.blank (c := ' ') (by decide)).keyword (w := "let") (by decide)
      (apart_cons (by decide))).mono ?_
    rintro _ ⟨l, _, rfl, hl, _, _, rfl, ⟨u, rfl, hu, hut⟩, a, ts, rfl, ha, hts⟩
    exact hut ▸ .declaration hl hu.kind ha hts

/-- An assignment is printed without the semicolon behind it. -/
theorem Node.Spelled.assignment (h : e.Spelled) (ht : t.kind = .identifier) (hl : t.Lexed)
    {span₁ : Option Span} : (Node.assignment span ⟨t.text, span₁⟩ e).ClauseSpelled := by
  obtain ⟨cs, c, hlast, hc⟩ := h.last
  refine ⟨t.text.toList ++ ' ' :: '=' :: ' ' :: e.print.toList,
    by simp [Node.toList_print_assignment], ?_, ?_⟩
  · have hprint : (Node.assignment span ⟨t.text, span₁⟩ e).print.toList =
        (t.text.toList ++ ' ' :: '=' :: ' ' :: cs) ++ [c] ++ [';'] := by
      simp [Node.toList_print_assignment, hlast]
    simp [Node.toList_dropSemicolons hprint hc, hlast]
  · refine ((Spells.name hl ht).append (h.spells loosest).assign (apart_cons (by decide))).mono ?_
    rintro _ ⟨_, _, rfl, ⟨u, rfl, hu, hut⟩, a, ts, rfl, ha, hts⟩
    exact hut ▸ .assignment hu ha hts

/-- A declaration or an assignment gets its semicolon as a statement. -/
theorem Node.ClauseSpelled.statement {n : Node} (h : n.ClauseSpelled) :
    Spells isWordChar n.print.toList (Prints (.statement n)) := by
  obtain ⟨cs, hprint, -, hs⟩ := h.text
  rw [hprint]
  refine (hs.concat_mark (c := ';') (by decide)).mono ?_
  rintro _ ⟨ts, u, rfl, hts, hu⟩
  exact .binding hts hu

/-- A loop is printed condition first. -/
theorem Node.Spelled.whileLoop (h₁ : condition.Spelled) (h₂ : body.BlockSpelled) :
    Spells isWordChar (Node.whileLoop span condition body).print.toList
      (Prints (.statement (.whileLoop span condition body))) := by
  rw [Node.toList_print_whileLoop _ h₂.present]
  refine (Spells.headed (w := "while") (by decide) (h₁.spells loosest) h₂.spells).mono ?_
  rintro _ ⟨w, o, ts, c, us, rfl, hw, ho, hts, hc, hus⟩
  exact .whileLoop hw ho hts hc hus

/-- A counting loop is printed with the semicolons between its clauses. -/
theorem Node.ClauseSpelled.forLoop {init post : Node} (h₁ : init.ClauseSpelled)
    (h₂ : condition.Spelled)
    (h₃ : post.ClauseSpelled) (h₄ : body.BlockSpelled) :
    Spells isWordChar (Node.forLoop span init condition post body).print.toList
      (Prints (.statement (.forLoop span init condition post body))) := by
  obtain ⟨cs, -, hinit, hs₁⟩ := h₁.text
  obtain ⟨ds, -, hpost, hs₂⟩ := h₃.text
  rw [Node.toList_print_forLoop _ _ _ h₄.present, hinit, hpost]
  have hlast := hs₂.append_mark (c := ')') (by decide) (h₄.spells.blank (c := ' ') (by decide))
  have hrest := (h₂.spells loosest).append_mark (c := ';') (by decide)
    (hlast.blank (c := ' ') (by decide))
  have hbody := hs₁.append_mark (c := ';') (by decide) (hrest.blank (c := ' ') (by decide))
  refine (((hbody.mark (c := '(') (by decide)).blank (c := ' ') (by decide)).keyword (w := "for")
    (by decide) (apart_cons (by decide))).mono ?_
  rintro _ ⟨f, _, rfl, hf, o, _, rfl, ho, ts, s₁, _, rfl, hts, hs₁, us, s₂, _, rfl, hus, hs₂,
    vs, c, xs, rfl, hvs, hc, hxs⟩
  exact .forLoop hf ho hts hs₁ hus hs₂ hvs hc hxs

/-! ## Lists of statements and arguments -/

/-- The text of statements in a row, with blanks between them, is lexed to their tokens. -/
structure ListSpelled (ns : List Node) : Prop where
  present : ∀ n ∈ ns, n.isMissing = false
  spells : ∀ c, c = ' ' ∨ c = '\n' →
    Spells isWordChar (printedList [c] ns) (Prints (.statements ns))

theorem ListSpelled.nil : ListSpelled [] where
  present := nofun
  spells _ _ := Spells.nil.mono fun _ hts => hts ▸ .noStatements

/-- Statements are printed on lines of their own, and lexed one after the other. -/
theorem ListSpelled.cons {n : Node} (hp : n.isMissing = false)
    (hn : Spells isWordChar n.print.toList (Prints (.statement n))) (hns : ListSpelled ns) :
    ListSpelled (n :: ns) := by
  refine ⟨List.forall_mem_cons.2 ⟨hp, hns.present⟩, fun c hc => ?_⟩
  cases ns with
  | nil =>
    refine hn.mono fun ts hts => ?_
    rw [← List.append_nil ts]
    exact .statements hts .noStatements
  | cons m ns =>
    have hblank : isBlank c = true ∧ isWordChar c = false := by
      rcases hc with rfl | rfl <;> decide
    rw [printedList, List.append_assoc, List.singleton_append]
    refine (hn.append ((hns.spells c hc).blank hblank.1) (apart_cons hblank.2)).mono ?_
    rintro _ ⟨ts, us, rfl, hts, hus⟩
    exact .statements hts hus

/-- What is lexed as an expression is there. -/
theorem Node.Spelled.present (h : e.Spelled) : e.isMissing = false := by
  obtain ⟨c, cs, hprint, -⟩ := h.first
  cases e with
  | missing => cases hprint
  | _ => rfl

/-- An expression is a statement by itself, since it is printed without a semicolon. -/
theorem Node.Spelled.statement (h : e.Spelled) : ListSpelled [.expression span e] :=
  .cons rfl ((h.spells loosest).mono fun _ hts => .expressionStatement hts) .nil

/-- A block is printed with its statements between the braces. -/
theorem ListSpelled.block (h : ListSpelled ns) : (Node.block span ns).BlockSpelled := by
  cases ns with
  | nil =>
    refine ⟨⟨['\x7b', ' '], Node.toList_print_block_nil⟩, ?_, rfl⟩
    rw [Node.toList_print_block_nil]
    refine (((Spells.nil.mark (c := '\x7d') (by decide)).blank (c := ' ') (by decide)).mark
      (c := '\x7b') (by decide)).mono ?_
    rintro _ ⟨o, _, rfl, ho, c, _, rfl, hc, rfl⟩
    exact .block ho .noStatements hc
  | cons n ns =>
    refine ⟨⟨'\x7b' :: ' ' :: (printedList [' '] (n :: ns) ++ [' ']), ?_⟩, ?_, rfl⟩
    · simp [Node.toList_print_block_cons h.present]
    · rw [Node.toList_print_block_cons h.present]
      have hclose := (Spells.nil.mark (p := isWordChar) (c := '\x7d') (by decide)).blank (c := ' ')
        (by decide)
      have hbody := (h.spells ' ' (.inl rfl)).append hclose (apart_cons (by decide))
      refine ((hbody.blank (c := ' ') (by decide)).mark (c := '\x7b') (by decide)).mono ?_
      rintro _ ⟨o, _, rfl, ho, ts, _, rfl, hts, c, _, rfl, hc, rfl⟩
      exact .block ho hts hc

theorem Node.Spelled.singleton (h : e.Spelled) : ArgumentsSpelled [e] where
  present := List.forall_mem_singleton.2 h.present
  spells := (h.spells loosest).mono fun _ hts => .lastArgument hts

/-- Arguments are printed with commas between them. -/
theorem Node.Spelled.cons (h : e.Spelled) (hs : ArgumentsSpelled es) (hne : es ≠ []) :
    ArgumentsSpelled (e :: es) := by
  obtain ⟨e', es, rfl⟩ := List.exists_cons_of_ne_nil hne
  refine ⟨List.forall_mem_cons.2 ⟨h.present, hs.present⟩, ?_⟩
  rw [printedList, List.append_assoc]
  refine ((h.spells loosest).append_mark (c := ',') (by decide)
    (hs.spells.blank (c := ' ') (by decide))).mono ?_
  rintro _ ⟨ts, c, us, rfl, hts, hc, hus⟩
  exact .nextArgument hts hc hus

/-! ## Everything that is written -/

/-- The text of a part is lexed to its tokens. -/
def Part.PrintSpelled : Part → Prop
  | .expression _ e | .conditional e => e.Spelled
  | .arguments es => ArgumentsSpelled es
  | .block n => n.BlockSpelled
  | .clause n => n.ClauseSpelled ∧ n.isMissing = false
  | .statement n => Spells isWordChar n.print.toList (Prints (.statement n)) ∧ n.isMissing = false
  | .statements ns => ListSpelled ns

/-- The tokens are those of a source, and none of them is too long to be read. -/
def Scanned (ts : List Token) : Prop :=
  ∀ t ∈ ts, t.Lexed ∧ (t.kind = .integer → t.text.length ≤ maxDigits)

@[simp]
theorem scanned_append {ts us : List Token} : Scanned (ts ++ us) ↔ Scanned ts ∧ Scanned us :=
  List.forall_mem_append

@[simp]
theorem scanned_cons {t : Token} {ts : List Token} :
    Scanned (t :: ts) ↔
      (t.Lexed ∧ (t.kind = .integer → t.text.length ≤ maxDigits)) ∧ Scanned ts :=
  List.forall_mem_cons

/-- **What is written by tokens of a source is printed as tokens.** -/
theorem Writes.printing {style : Style} {part : Part} {ts : List Token} (h : Writes style part ts)
    (hl : Scanned ts) : part.PrintSpelled := by
  induction h with
  | identifier ht =>
    rw [scanned_cons] at hl
    exact spelled_identifier ht hl.1.1
  | integer ht =>
    rw [scanned_cons] at hl
    exact spelled_integer ht hl.1.1 (hl.1.2 ht)
  | grouped _ _ _ ih =>
    simp only [scanned_cons, scanned_append] at hl
    exact ih hl.2.1
  | signed _ ht _ ih =>
    rw [scanned_cons] at hl
    exact (ih hl.2).unary ht hl.1.1
  | infixed _ ho _ _ ih₁ ih₂ =>
    simp only [scanned_cons, scanned_append] at hl
    exact (ih₁ hl.1).binary ho hl.2.1.1 (ih₂ hl.2.2)
  | call _ _ _ _ ih₁ ih₂ =>
    simp only [scanned_cons, scanned_append] at hl
    exact (ih₁ hl.1).call (ih₂ hl.2.2.1)
  | function _ _ hps _ _ ih =>
    simp only [scanned_cons, scanned_append] at hl
    exact (ih hl.2.2.2.2).function hps fun t ht => (hl.2.2.1 t ht).1
  | choice _ ih => exact ih hl
  | noArguments => exact ⟨nofun, Spells.nil.mono fun _ hts => hts ▸ .noArguments⟩
  | lastArgument _ ih => exact (ih hl).singleton
  | nextArgument _ _ h hne ih₁ ih₂ =>
    simp only [scanned_cons, scanned_append] at hl
    refine (ih₁ hl.1).cons (ih₂ hl.2.2) ?_
    rintro rfl
    cases h
    exact hne rfl
  | ifOnly _ _ _ _ _ ih₁ ih₂ =>
    simp only [scanned_cons, scanned_append] at hl
    exact (ih₁ hl.2.2.1).ifOnly (ih₂ hl.2.2.2.2)
  | ifElse _ _ _ _ _ _ _ ih₁ ih₂ ih₃ =>
    simp only [scanned_cons, scanned_append] at hl
    exact (ih₁ hl.2.2.1).ifElse (ih₂ hl.2.2.2.2.1) (ih₃ hl.2.2.2.2.2.2)
  | elseIf _ _ _ _ _ _ _ ih₁ ih₂ ih₃ =>
    -- the braces that the tree gives to `else if` are printed
    simp only [scanned_cons, scanned_append] at hl
    exact (ih₁ hl.2.2.1).ifElse (ih₂ hl.2.2.2.2.1) (ih₃ hl.2.2.2.2.2.2).statement.block
  | block _ _ _ ih =>
    simp only [scanned_cons, scanned_append] at hl
    exact (ih hl.2.1).block
  | noStatements => exact .nil
  | statements _ _ ih₁ ih₂ =>
    rw [scanned_append] at hl
    exact .cons (ih₁ hl.1).2 (ih₁ hl.1).1 (ih₂ hl.2)
  | binding _ _ ih =>
    rw [scanned_append] at hl
    exact ⟨(ih hl.1).1.statement, (ih hl.1).2⟩
  | expressionStatement _ _ ih =>
    rw [scanned_append] at hl
    exact ⟨((ih hl.1).spells loosest).mono fun _ hts => .expressionStatement hts, rfl⟩
  | whileLoop _ _ _ _ _ ih₁ ih₂ =>
    simp only [scanned_cons, scanned_append] at hl
    exact ⟨(ih₁ hl.2.2.1).whileLoop (ih₂ hl.2.2.2.2), rfl⟩
  | forLoop _ _ _ _ _ _ _ _ _ ih₁ ih₂ ih₃ ih₄ =>
    simp only [scanned_cons, scanned_append] at hl
    exact ⟨(ih₁ hl.2.2.1).1.forLoop (ih₂ hl.2.2.2.2.1) (ih₃ hl.2.2.2.2.2.2.1).1
      (ih₄ hl.2.2.2.2.2.2.2.2), rfl⟩
  | declaration _ ht _ _ ih =>
    simp only [scanned_cons] at hl
    exact ⟨(ih hl.2.2.2).declaration ht hl.2.1.1, rfl⟩
  | assignment ht _ _ ih =>
    simp only [scanned_cons] at hl
    exact ⟨(ih hl.2.2).assignment ht hl.1.1, rfl⟩

end Ember

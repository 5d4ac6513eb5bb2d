import Ember.Proofs.Grammar.Sound
import Ember.Proofs.Grammar.Writing

/-!
# The grammar of the language

`Derives symbol ts` says that the tokens `ts` may be derived from a symbol of the
grammar, as a language reference would give it: binary operators stand between any two
expressions, and nothing says where a statement ends that has no semicolon. So the
grammar is ambiguous, and the parser settles for one of the derivations.

Derivations are writings without their trees (`Writes.derives`), and whatever is read is
written so, in the free style (`Reads.writes`).
-/

namespace Ember

/-- A semicolon that may be left out. -/
inductive OptionalSemicolon : List Token → Prop
  | omitted : OptionalSemicolon []
  | present {t : Token} : t.kind = .semicolon → OptionalSemicolon [t]

/-! ## The grammar -/

/-- The symbols of the grammar. -/
inductive Symbol where
  | statements
  | statement
  /-- A declaration or an assignment, without a semicolon. -/
  | clause
  | block
  | expression
  | arguments
  | conditional
deriving DecidableEq, Repr

/-- The tokens are derived from the symbol. -/
inductive Derives : Symbol → List Token → Prop
  | noStatements : Derives .statements []
  | statements {ts us : List Token} :
      Derives .statement ts → Derives .statements us → Derives .statements (ts ++ us)
  | binding {ts us : List Token} :
      Derives .clause ts → OptionalSemicolon us → Derives .statement (ts ++ us)
  | expressionStatement {ts us : List Token} :
      Derives .expression ts → OptionalSemicolon us → Derives .statement (ts ++ us)
  | whileLoop {w o c : Token} {ts us : List Token} :
      w.kind = .whileWord → o.kind = .leftParen → Derives .expression ts →
      c.kind = .rightParen → Derives .block us → Derives .statement (w :: o :: (ts ++ c :: us))
  | forLoop {f o s₁ s₂ c : Token} {ts us vs xs : List Token} :
      f.kind = .forWord → o.kind = .leftParen → Derives .clause ts → s₁.kind = .semicolon →
      Derives .expression us → s₂.kind = .semicolon → Derives .clause vs → c.kind = .rightParen →
      Derives .block xs → Derives .statement (f :: o :: (ts ++ s₁ :: (us ++ s₂ :: (vs ++ c :: xs))))
  | declaration {l t a : Token} {ts : List Token} :
      l.kind = .letWord → t.kind = .identifier → a.kind = .assign → Derives .expression ts →
      Derives .clause (l :: t :: a :: ts)
  | assignment {t a : Token} {ts : List Token} :
      t.kind = .identifier → a.kind = .assign → Derives .expression ts →
      Derives .clause (t :: a :: ts)
  | block {o c : Token} {ts : List Token} :
      o.kind = .leftBrace → Derives .statements ts → c.kind = .rightBrace →
      Derives .block (o :: (ts ++ [c]))
  | identifier {t : Token} : t.kind = .identifier → Derives .expression [t]
  | integer {t : Token} : t.kind = .integer → Derives .expression [t]
  | grouped {o c : Token} {ts : List Token} :
      o.kind = .leftParen → Derives .expression ts → c.kind = .rightParen →
      Derives .expression (o :: (ts ++ [c]))
  | signed {t : Token} {ts : List Token} :
      t.kind = .bang ∨ t.kind = .minus → Derives .expression ts → Derives .expression (t :: ts)
  | infixed {op : Token} {ts us : List Token} :
      Derives .expression ts → op.kind.isInfix → Derives .expression us →
      Derives .expression (ts ++ op :: us)
  | call {o c : Token} {ts us : List Token} :
      Derives .expression ts → o.kind = .leftParen → Derives .arguments us →
      c.kind = .rightParen → Derives .expression (ts ++ o :: (us ++ [c]))
  | function {f o c : Token} {ps ts : List Token} {names : List Name} :
      f.kind = .functionWord → o.kind = .leftParen → Names names ps → c.kind = .rightParen →
      Derives .block ts → Derives .expression (f :: o :: (ps ++ c :: ts))
  | choice {ts : List Token} : Derives .conditional ts → Derives .expression ts
  | noArguments : Derives .arguments []
  | lastArgument {ts : List Token} : Derives .expression ts → Derives .arguments ts
  | nextArgument {c : Token} {ts us : List Token} :
      Derives .expression ts → c.kind = .comma → Derives .arguments us → us ≠ [] →
      Derives .arguments (ts ++ c :: us)
  | ifOnly {i o c : Token} {ts us : List Token} :
      i.kind = .ifWord → o.kind = .leftParen → Derives .expression ts → c.kind = .rightParen →
      Derives .block us → Derives .conditional (i :: o :: (ts ++ c :: us))
  | ifElse {i o c e : Token} {ts us vs : List Token} :
      i.kind = .ifWord → o.kind = .leftParen → Derives .expression ts → c.kind = .rightParen →
      Derives .block us → e.kind = .elseWord → Derives .block vs →
      Derives .conditional (i :: o :: (ts ++ c :: (us ++ e :: vs)))
  | elseIf {i o c e : Token} {ts us vs : List Token} :
      i.kind = .ifWord → o.kind = .leftParen → Derives .expression ts → c.kind = .rightParen →
      Derives .block us → e.kind = .elseWord → Derives .conditional vs →
      Derives .conditional (i :: o :: (ts ++ c :: (us ++ e :: vs)))

/-! ## Writings are derivations -/

/-- The symbol of a part. -/
def Part.symbol : Part → Symbol
  | statements _ => .statements
  | statement _ => .statement
  | clause _ => .clause
  | block _ => .block
  | expression _ _ => .expression
  | arguments _ => .arguments
  | conditional _ => .conditional

theorem Style.Ends.optional {style : Style} {ts : List Token} (h : style.Ends ts) :
    OptionalSemicolon ts := by
  cases h with
  | semicolon ht => exact .present ht
  | omitted => exact .omitted

/-- What is written, in either style, is derived. -/
theorem Writes.derives {style : Style} {part : Part} {ts : List Token} (h : Writes style part ts) :
    Derives part.symbol ts := by
  induction h with
  | identifier ht => exact .identifier ht
  | integer ht => exact .integer ht
  | grouped ho _ hc ih => exact .grouped ho ih hc
  | signed _ ht _ ih => exact .signed ht ih
  | infixed _ ho _ _ ih₁ ih₂ => exact .infixed ih₁ ho ih₂
  | call _ ho _ hc ih₁ ih₂ => exact .call ih₁ ho ih₂ hc
  | function hf ho hps hc _ ih => exact .function hf ho hps hc ih
  | choice _ ih => exact .choice ih
  | noArguments => exact .noArguments
  | lastArgument _ ih => exact .lastArgument ih
  | nextArgument _ hc _ hne ih₁ ih₂ => exact .nextArgument ih₁ hc ih₂ hne
  | ifOnly hi ho _ hc _ ih₁ ih₂ => exact .ifOnly hi ho ih₁ hc ih₂
  | ifElse hi ho _ hc _ he _ ih₁ ih₂ ih₃ => exact .ifElse hi ho ih₁ hc ih₂ he ih₃
  | elseIf hi ho _ hc _ he _ ih₁ ih₂ ih₃ => exact .elseIf hi ho ih₁ hc ih₂ he ih₃
  | block ho _ hc ih => exact .block ho ih hc
  | noStatements => exact .noStatements
  | statements _ _ ih₁ ih₂ => exact .statements ih₁ ih₂
  | binding _ hs ih => exact .binding ih hs.optional
  | expressionStatement _ hs ih => exact .expressionStatement ih hs.optional
  | whileLoop hw ho _ hc _ ih₁ ih₂ => exact .whileLoop hw ho ih₁ hc ih₂
  | forLoop hf ho _ h₁ _ h₂ _ hc _ ih₁ ih₂ ih₃ ih₄ =>
    exact .forLoop hf ho ih₁ h₁ ih₂ h₂ ih₃ hc ih₄
  | declaration hl ht ha _ ih => exact .declaration hl ht ha ih
  | assignment ht ha _ ih => exact .assignment ht ha ih

/-! ## What is read is written -/

/-- Further parameters are names with commas between them, and the parenthesis. -/
theorem MoreParameters.names {ts : List Token} {names : List Name} (h : MoreParameters ts names) :
    ∃ us c, ts = us ++ [c] ∧ c.kind = .rightParen ∧ ∀ (t : Token) (span : Option Span),
      t.kind = .identifier → Names (⟨t.text, span⟩ :: names) (t :: us) := by
  induction h with
  | @close c hc => exact ⟨[], c, rfl, hc, fun _ _ ht => .last ht⟩
  | @next c t ts names span hc ht _ ih =>
    obtain ⟨us, c', rfl, hc', hus⟩ := ih
    exact ⟨c :: t :: us, c', rfl, hc', fun _ _ ht' => .next ht' hc (hus t span ht)⟩

/-- Parameters are names with commas between them, and the parenthesis. -/
theorem Parameters.names {ts : List Token} {names : List Name} (h : Parameters ts names) :
    ∃ us c, ts = us ++ [c] ∧ c.kind = .rightParen ∧ Names names us := by
  cases h with
  | @none c hc => exact ⟨[], c, rfl, hc, .none⟩
  | @some t ts names span ht h =>
    obtain ⟨us, c, rfl, hc, hus⟩ := h.names
    exact ⟨t :: us, c, rfl, hc, hus t span ht⟩

/-- Names with commas between them are parameters in front of the parenthesis. -/
theorem Names.parameters {names : List Name} {ts : List Token} {c : Token} (h : Names names ts)
    (hc : c.kind = .rightParen) : Parameters (ts ++ [c]) names := by
  -- `MoreParameters` starts behind the first name, so that name is set aside
  have hmore : names = [] ∧ ts = [] ∨ ∃ t us span rest, ts = t :: us ∧ t.kind = .identifier ∧
      names = ⟨t.text, span⟩ :: rest ∧ MoreParameters (us ++ [c]) rest := by
    induction h with
    | none => exact .inl ⟨rfl, rfl⟩
    | @last t span ht => exact .inr ⟨t, [], span, [], rfl, ht, rfl, .close hc⟩
    | @next t c' ts span name names ht hcomma _ ih =>
      rcases ih with ⟨h, -⟩ | ⟨t', us, span', rest, rfl, ht', hnames, hrest⟩
      · cases h
      · rw [hnames]
        exact .inr ⟨t, c' :: t' :: us, span, _, rfl, ht, rfl, .next hcomma ht' hrest⟩
  rcases hmore with ⟨rfl, rfl⟩ | ⟨t, us, span, rest, rfl, ht, rfl, hrest⟩
  · exact .none hc
  · exact .some ht hrest

/-- What ends a statement is a semicolon or nothing. -/
theorem Terminator.ends {ts : List Token} {k : Kind} (h : Terminator ts k) :
    Style.free.Ends ts := by
  cases h with
  | semicolon ht => exact .semicolon ht
  | omitted => exact .omitted

/-- What binds like an operator and is no parenthesis is an operator. -/
theorem Kind.isInfix_of_lt {k : Kind} {above : Nat} (ha : lowest ≤ above) (hs : above < k.strength)
    (hk : k ≠ .leftParen) : k.isInfix := by
  have hs' : lowest < k.strength := Nat.lt_of_le_of_lt ha hs
  clear hs
  revert hs' hk
  cases k <;> decide

/-- What a reading writes. Operators go on from the tree to their left. -/
def Reading.Written (ts : List Token) : Reading → Prop
  | .operand n | .expression _ n => Writes .free (.expression loosest n) ts
  | .operators _ left n => ∀ pre, Writes .free (.expression loosest left) pre →
      Writes .free (.expression loosest n) (pre ++ ts)
  | .arguments ns =>
    ∃ us c, ts = us ++ [c] ∧ c.kind = .rightParen ∧ Writes .free (.arguments ns) us
  | .moreArguments ns => ∃ us c, ts = us ++ [c] ∧ c.kind = .rightParen ∧
      ∀ n pre, Writes .free (.expression loosest n) pre →
        Writes .free (.arguments (n :: ns)) (pre ++ us)
  | .conditional n => Writes .free (.conditional n) ts
  | .block n => Writes .free (.block n) ts
  | .statements ns => Writes .free (.statements ns) ts
  | .binding n => Writes .free (.clause n) ts
  | .statement n => Writes .free (.statement n) ts

/-- **A tree that is read is written by the tokens that it is read from.** -/
theorem Reads.writes {r : Reading} {ts : List Token} {k : Kind} (h : Reads r ts k)
    (hr : r.Proper) : r.Written ts := by
  induction h with
  | identifier ht => exact .identifier ht
  | integer ht _ => exact .integer ht
  | signed ht _ ih => exact .signed (by decide) ht (ih (show lowest ≤ signStrength by decide))
  | grouped ho _ hc ih => exact .grouped ho (ih (Nat.le_refl lowest)) hc
  | choice _ ih => exact .choice (ih trivial)
  | function hf ho hps _ ih =>
    obtain ⟨us, c, rfl, hc, hus⟩ := hps.names
    rw [List.append_assoc, List.singleton_append]
    exact .function hf ho hus hc (ih trivial)
  | expression _ _ ih₁ ih₂ => exact ih₂ hr _ (ih₁ trivial)
  | stop _ =>
    intro pre hpre
    rwa [List.append_nil]
  | @infixed op ts us _ above _ _ _ _ hs ho _ _ ih₁ ih₂ =>
    intro pre hpre
    have hright := ih₁ (Nat.le_of_lt (Nat.lt_of_le_of_lt hr hs))
    have hinfix := Kind.isInfix_of_lt hr hs ho
    have hall := ih₂ hr _ (.infixed (Nat.lt_of_le_of_lt hr hs) hinfix hpre hright)
    rwa [List.append_assoc, List.cons_append] at hall
  | call hs ho _ _ ih₁ ih₂ =>
    intro pre hpre
    obtain ⟨us, c, rfl, hc, hus⟩ := ih₁ trivial
    have hall := ih₂ hr _ (.call hpre ho hus hc)
    rwa [List.append_assoc, List.cons_append] at hall
  | @noArguments c _ hc => exact ⟨[], c, rfl, hc, .noArguments⟩
  | arguments _ _ ih₁ ih₂ =>
    obtain ⟨us, c, rfl, hc, hus⟩ := ih₂ trivial
    exact ⟨_ ++ us, c, by rw [List.append_assoc], hc, hus _ _ (ih₁ (Nat.le_refl lowest))⟩
  | @lastArgument c _ hc =>
    refine ⟨[], c, rfl, hc, fun n pre hpre => ?_⟩
    rw [List.append_nil]
    exact .lastArgument hpre
  | @nextArgument c ts us _ n ns hc h _ ih₁ ih₂ =>
    obtain ⟨us', c', rfl, hc', hus⟩ := ih₂ trivial
    refine ⟨c :: (ts ++ us'), c', by simp, hc', fun n pre hpre => ?_⟩
    refine .nextArgument hpre hc (hus _ _ (ih₁ (Nat.le_refl lowest))) ?_
    exact List.append_ne_nil_of_left_ne_nil (h.ne_nil trivial) _
  | ifOnly hi ho _ hc _ _ ih₁ ih₂ => exact .ifOnly hi ho (ih₁ (Nat.le_refl lowest)) hc (ih₂ trivial)
  | ifElse hi ho _ hc _ he _ ih₁ ih₂ ih₃ =>
    exact .ifElse hi ho (ih₁ (Nat.le_refl lowest)) hc (ih₂ trivial) he (ih₃ trivial)
  | elseIf hi ho _ hc _ he _ ih₁ ih₂ ih₃ =>
    exact .elseIf hi ho (ih₁ (Nat.le_refl lowest)) hc (ih₂ trivial) he (ih₃ trivial)
  | block ho _ hc ih => exact .block ho (ih trivial) hc
  | noStatements => exact .noStatements
  | statements _ _ ih₁ ih₂ => exact .statements (ih₁ trivial) (ih₂ trivial)
  | declaration hl ht ha _ ih => exact .declaration hl ht ha (ih (Nat.le_refl lowest))
  | assignment ht ha _ ih => exact .assignment ht ha (ih (Nat.le_refl lowest))
  | binding _ hu ih => exact .binding (ih trivial) hu.ends
  | expressionStatement _ hu _ ih =>
    exact .expressionStatement (ih (Nat.le_refl lowest)) hu.ends
  | whileLoop hw ho _ hc _ ih₁ ih₂ =>
    exact .whileLoop hw ho (ih₁ (Nat.le_refl lowest)) hc (ih₂ trivial)
  | forLoop hf ho _ h₁ _ h₂ _ hc _ ih₁ ih₂ ih₃ ih₄ =>
    exact .forLoop hf ho (ih₁ trivial) h₁ (ih₂ (Nat.le_refl lowest)) h₂ (ih₃ trivial) hc
      (ih₄ trivial)

/-! ## No literal that is read is too long -/

/-- Parameters hold no integer literal. -/
theorem Names.readable {names : List Name} {ts : List Token} (h : Names names ts) :
    Readable ts := by
  induction h with
  | none => exact nofun
  | last ht => simp [ht]
  | next ht hc _ ih => simp [ht, hc, ih]

theorem Parameters.readable {ts : List Token} {names : List Name} (h : Parameters ts names) :
    Readable ts := by
  obtain ⟨us, c, rfl, hc, hus⟩ := h.names
  simp [hus.readable, hc]

theorem Kind.infix_ne_integer {k : Kind} (h : k.isInfix) : k ≠ .integer := by
  rintro rfl
  cases h

theorem Terminator.readable {ts : List Token} {k : Kind} (h : Terminator ts k) : Readable ts := by
  cases h with
  | semicolon ht => simp [ht]
  | omitted => exact nofun

/-- What is read has no integer literal that is too long. -/
theorem Reads.readable {r : Reading} {ts : List Token} {k : Kind} (h : Reads r ts k)
    (hr : r.Proper) : Readable ts := by
  induction h with
  | identifier ht => simp [ht]
  | integer _ hl => simp [hl]
  | signed ht _ ih =>
    have hts := ih (show lowest ≤ signStrength by decide)
    rcases ht with ht | ht <;> simp [ht, hts]
  | function hf ho hps _ ih => simp [hf, ho, hps.readable, ih trivial]
  | infixed hs ho _ _ ih₁ ih₂ =>
    have hop := Kind.infix_ne_integer (Kind.isInfix_of_lt hr hs ho)
    simp [hop, ih₁ (Nat.le_trans hr (Nat.le_of_lt hs)), ih₂ hr]
  | binding _ hu ih => simp [ih trivial, hu.readable]
  | expressionStatement _ hu _ ih => simp [ih (Nat.le_refl lowest), hu.readable]
  | _ => simp_all [Reading.Proper]

end Ember

import Ember.Proofs.Grammar.Derivation

/-!
# What is derived is read

The parser settles an ambiguity for the longer reading: an operator or a call that may
go on is taken. Greed never fails where the grammar has a derivation
(`Derives.read`). The reason is that a derived expression can be cut into operands,
signs, operators and calls without regard to strength (`Chain`), that a chain may
be cut into trees by strength afterwards (`Chain.reads`), and that a statement which
starts like the rest of an expression may be joined to the expression before it
(`Sequence.unterminated`).
-/

namespace Ember

/-! ## Chains -/

/-- Where a chain is entered: in front of an operand, or behind one. -/
inductive Position where
  | operand
  | operator
deriving DecidableEq, Repr

/-- An expression as a chain of operands, signs, operators and calls. -/
inductive Chain : Position → List Token → Prop
  | signed {t : Token} {ts : List Token} :
      t.kind = .bang ∨ t.kind = .minus → Chain .operand ts → Chain .operand (t :: ts)
  | grouped {o c : Token} {ts us : List Token} {n : Node} :
      o.kind = .leftParen → Reads (.expression lowest n) ts .rightParen → c.kind = .rightParen →
      Chain .operator us → Chain .operand (o :: (ts ++ c :: us))
  | identifier {t : Token} {us : List Token} :
      t.kind = .identifier → Chain .operator us → Chain .operand (t :: us)
  /-- An operand of another kind, which may be read before anything but `else`. -/
  | operand {t : Token} {ts us : List Token} :
      t.kind = .integer ∨ t.kind = .functionWord ∨ t.kind = .ifWord →
      (∀ k ≠ .elseWord, ∃ n, Reads (.operand n) (t :: ts) k) → Chain .operator us →
      Chain .operand (t :: (ts ++ us))
  | stop : Chain .operator []
  | infixed {op : Token} {ts : List Token} :
      op.kind.isInfix → Chain .operand ts → Chain .operator (op :: ts)
  | call {o : Token} {ts us : List Token} :
      o.kind = .leftParen → (∀ k, ∃ ns, Reads (.arguments ns) ts k) → Chain .operator us →
      Chain .operator (o :: (ts ++ us))

namespace Chain

variable {p : Position} {ts us : List Token} {k : Kind}

theorem append (h : Chain p ts) (hu : Chain .operator us) : Chain p (ts ++ us) := by
  induction h with
  | signed ht _ ih => exact .signed ht ih
  | grouped ho h hc _ ih =>
    have hall := Chain.grouped ho h hc ih
    simpa only [List.cons_append, List.append_assoc] using hall
  | identifier ht _ ih => exact .identifier ht ih
  | operand ht h _ ih =>
    have hall := Chain.operand ht h ih
    simpa only [List.cons_append, List.append_assoc] using hall
  | stop => exact hu
  | infixed ho _ ih => exact .infixed ho ih
  | call ho h _ ih =>
    have hall := Chain.call ho h ih
    simpa only [List.cons_append, List.append_assoc] using hall

/-- Behind an operand a chain starts with an operator or an opening parenthesis. -/
theorem first_operator (h : Chain .operator ts) :
    ts = [] ∨ ∃ t us, ts = t :: us ∧ lowest < t.kind.strength ∧ t.kind ≠ .elseWord := by
  cases h with
  | stop => exact .inl rfl
  | @infixed op ts ho _ =>
    refine .inr ⟨op, ts, rfl, ?_⟩
    revert ho
    cases op.kind <;> decide
  | @call o ts us ho _ _ =>
    refine .inr ⟨o, ts ++ us, rfl, ?_⟩
    rw [ho]
    decide

theorem firstKind_ne_else (h : Chain .operator ts) (hk : k ≠ .elseWord) :
    firstKind ts k ≠ .elseWord := by
  rcases h.first_operator with rfl | ⟨t, us, rfl, -, ht⟩
  · exact hk
  · exact ht

/-- A chain that starts with a minus or a parenthesis may stand behind an operand as well. -/
theorem behind_operand (h : Chain .operand ts)
    (hk : firstKind ts k = .minus ∨ firstKind ts k = .leftParen) : Chain .operator ts := by
  cases h with
  | @signed t ts ht h =>
    rw [firstKind_cons] at hk
    refine .infixed ?_ h
    rcases hk with hk | hk
    · rw [hk]
      rfl
    · rw [hk] at ht
      rcases ht with ht | ht <;> cases ht
  | @grouped o c ts us n ho h hc hu =>
    -- the parentheses become those of a call with one argument
    have hargs : ∀ k, ∃ ns, Reads (.arguments ns) (ts ++ [c]) k := fun k =>
      ⟨[n], .arguments (by rwa [firstKind_cons, hc]) (.lastArgument hc)⟩
    have hall := Chain.call ho hargs hu
    simpa only [List.append_assoc, List.singleton_append] using hall
  | identifier ht _ =>
    rw [firstKind_cons, ht] at hk
    rcases hk with hk | hk <;> cases hk
  | operand ht _ _ =>
    rw [firstKind_cons] at hk
    rcases ht with ht | ht | ht <;> · rw [ht] at hk; rcases hk with hk | hk <;> cases hk

/-! ### Cutting a chain by strength -/

/-- The front of the chain is read as an expression of operators that bind more strongly
than `above`, or as what goes on behind an operand, and a chain of weaker ones is left. -/
def Splits (above : Nat) (ts : List Token) (k : Kind) : Position → Prop
  | .operand => ∃ us vs n, ts = us ++ vs ∧ Reads (.expression above n) us (firstKind vs k) ∧
      Chain .operator vs ∧ (firstKind vs k).strength ≤ above
  | .operator => ∀ left, ∃ us vs n, ts = us ++ vs ∧
      Reads (.operators above left n) us (firstKind vs k) ∧
      Chain .operator vs ∧ (firstKind vs k).strength ≤ above

/-- An operand and what goes on behind it. -/
theorem splits_expression {above : Nat} {n : Node}
    (h : Reads (.operand n) ts (firstKind us k)) (hu : Splits above us k .operator) :
    Splits above (ts ++ us) k .operand := by
  obtain ⟨us, vs, n', rfl, hr, hv, hs⟩ := hu n
  refine ⟨ts ++ us, vs, n', by rw [List.append_assoc], .expression ?_ hr, hv, hs⟩
  rwa [firstKind_append] at h

/-- Operators that are too weak are left. -/
theorem splits_nothing {above : Nat} (h : Chain .operator ts)
    (hs : (firstKind ts k).strength ≤ above) : Splits above ts k .operator :=
  fun left => ⟨[], ts, left, rfl, .stop hs, h, hs⟩

/-- The front of any chain can be read, however strongly its operators have to bind. -/
theorem splits {above : Nat} (h : Chain p ts) (hk : k.strength ≤ lowest) (he : k ≠ .elseWord)
    (ha : lowest ≤ above) : Splits above ts k p := by
  -- a strong operator takes a chain as its operand and leaves a shorter one behind
  induction hlen : ts.length using Nat.strongRecOn generalizing p ts above with
  | ind len ih =>
    subst hlen
    have hshorter : ∀ {u vs : List Token} {t : Token}, ts = t :: (u ++ vs) →
        vs.length < ts.length := by
      intro u vs t he
      rw [he, List.length_cons, List.length_append]
      omega
    cases h with
    | @signed t ts ht h =>
      obtain ⟨us, vs, n, rfl, hr, hv, -⟩ :=
        ih ts.length (hshorter (u := []) rfl) h (show lowest ≤ signStrength by decide) rfl
      have hvs := ih vs.length (hshorter rfl) hv ha rfl
      have hoperand : Reads (.operand (.unary none t.text n)) (t :: us) (firstKind vs k) :=
        .signed ht hr
      exact splits_expression hoperand hvs
    | @grouped o c ts us n ho h hc hu =>
      have hus := ih us.length (hshorter (t := o) (u := ts ++ [c]) (by simp)) hu ha rfl
      have hall := splits_expression (Reads.grouped ho h hc) hus
      rwa [List.cons_append, List.append_assoc, List.singleton_append] at hall
    | @identifier t us ht hu =>
      have hus := ih us.length (hshorter (u := []) rfl) hu ha rfl
      have hoperand : Reads (.operand (.identifier none t.text)) [t] (firstKind us k) :=
        .identifier ht
      exact splits_expression hoperand hus
    | @operand t ts us ht h hu =>
      have hus := ih us.length (hshorter rfl) hu ha rfl
      obtain ⟨n, hr⟩ := h (firstKind us k) (hu.firstKind_ne_else he)
      exact splits_expression hr hus
    | stop => exact splits_nothing .stop (Nat.le_trans hk ha)
    | @infixed op ts ho h =>
      by_cases hs : op.kind.strength ≤ above
      · exact splits_nothing (.infixed ho h) hs
      -- the right operand takes what binds more strongly, and the loop goes on with the rest
      intro left
      have hs' : lowest ≤ op.kind.strength := by omega
      obtain ⟨us, vs, right, rfl, hr, hv, -⟩ := ih ts.length (hshorter (u := []) rfl) h hs' rfl
      have hvs := ih vs.length (hshorter rfl) hv ha rfl
      obtain ⟨us', vs', n, rfl, hr', hv', hw⟩ := hvs (.binary none left op.text right)
      refine ⟨op :: (us ++ us'), vs', n, by simp, .infixed (by omega) ?_ ?_ hr', hv', hw⟩
      · intro hp
        rw [hp] at ho
        cases ho
      · rwa [firstKind_append] at hr
    | @call o ts us ho h hu =>
      by_cases hs : o.kind.strength ≤ above
      · exact splits_nothing (.call ho h hu) hs
      intro left
      have hus := ih us.length (hshorter rfl) hu ha rfl
      obtain ⟨args, hargs⟩ := h (firstKind us k)
      obtain ⟨us', vs', n, rfl, hr', hv', hw⟩ := hus (.call none left args)
      refine ⟨o :: (ts ++ us'), vs', n, by simp, .call (by omega) ho ?_ hr', hv', hw⟩
      rwa [firstKind_append] at hargs

/-- **A chain is read as an expression** in front of anything that does not go on with it. -/
theorem reads (h : Chain .operand ts) (hk : k.strength ≤ lowest) (he : k ≠ .elseWord) :
    ∃ n, Reads (.expression lowest n) ts k := by
  obtain ⟨us, vs, n, rfl, hr, hv, hs⟩ := h.splits hk he (Nat.le_refl lowest)
  rcases hv.first_operator with rfl | ⟨t, xs, rfl, ht, -⟩
  · rw [List.append_nil]
    exact ⟨n, hr⟩
  · rw [firstKind_cons] at hs
    omega

end Chain

/-! ## Sequences of statements -/

/-- What may stand behind an expression without being part of it or of its statement. -/
def Kind.Separates (k : Kind) : Prop :=
  k.strength ≤ lowest ∧ k ≠ .elseWord ∧ k ≠ .semicolon ∧ k ≠ .assign

/-- What stands in front of the expression of a statement. -/
inductive Opening : List Token → Prop
  | expression : Opening []
  | declaration {l t a : Token} : l.kind = .letWord → t.kind = .identifier → a.kind = .assign →
      Opening [l, t, a]
  | assignment {t a : Token} : t.kind = .identifier → a.kind = .assign → Opening [t, a]

/-- Statements, none of which could be taken for the rest of the one before. -/
inductive Sequence : List Token → Prop
  | nil : Sequence []
  | loop {t : Token} {ts us : List Token} : t.kind = .whileWord ∨ t.kind = .forWord →
      (∀ k, ∃ n, Reads (.statement n) (t :: ts) k) → Sequence us → Sequence (t :: (ts ++ us))
  | terminated {t : Token} {ps ts us : List Token} : Opening ps → Chain .operand ts →
      t.kind = .semicolon → Sequence us → Sequence (ps ++ (ts ++ t :: us))
  | unterminated {ps ts us : List Token} : Opening ps → Chain .operand ts →
      (firstKind us .endOfText).Separates → Sequence us → Sequence (ps ++ (ts ++ us))

theorem Chain.first_operand {ts : List Token} (h : Chain .operand ts) :
    ∃ t us, ts = t :: us ∧ t.kind.beginsExpression := by
  cases h with
  | @signed t ts ht _ => exact ⟨t, ts, rfl, by rcases ht with ht | ht <;> · rw [ht]; rfl⟩
  | @grouped o c ts us _ ho _ _ _ => exact ⟨o, ts ++ c :: us, rfl, by rw [ho]; rfl⟩
  | @identifier t us ht _ => exact ⟨t, us, rfl, by rw [ht]; rfl⟩
  | @operand t ts us ht _ _ =>
    exact ⟨t, ts ++ us, rfl, by rcases ht with ht | ht | ht <;> · rw [ht]; rfl⟩

/-- Only a minus and a parenthesis go on with an expression and start one. -/
theorem Kind.separates_or {k : Kind} (h : k.beginsExpression) :
    k.Separates ∨ k = .minus ∨ k = .leftParen := by
  unfold Separates
  revert h
  cases k <;> decide

/-- The front of a statement either cannot belong to an expression before it, or goes on
with any such expression. -/
theorem Opening.separates_or {ps ts : List Token} (hp : Opening ps) (h : Chain .operand ts) :
    (∀ vs k, (firstKind (ps ++ (ts ++ vs)) k).Separates) ∨ ps = [] ∧ Chain .operator ts := by
  unfold Kind.Separates
  cases hp with
  | declaration hl =>
    refine .inl fun vs k => ?_
    rw [List.cons_append, firstKind_cons, hl]
    decide
  | assignment ht =>
    refine .inl fun vs k => ?_
    rw [List.cons_append, firstKind_cons, ht]
    decide
  | expression =>
    obtain ⟨t, us, rfl, ht⟩ := h.first_operand
    rcases Kind.separates_or ht with hs | hk
    · exact .inl fun _ _ => hs
    · exact .inr ⟨rfl, h.behind_operand (k := .endOfText) hk⟩

namespace Sequence

variable {ps ts us : List Token} {k : Kind}

/-- **A statement without a semicolon may stand in front of any sequence.** If the next
statement starts like the rest of an expression, the two become one. -/
theorem cons_unterminated (hp : Opening ps) (h : Chain .operand ts) (hs : Sequence us) :
    Sequence (ps ++ (ts ++ us)) := by
  cases hs with
  | nil => exact .unterminated hp h (by unfold Kind.Separates; decide) .nil
  | loop ht hr hs =>
    refine .unterminated hp h ?_ (.loop ht hr hs)
    rw [firstKind_cons]
    unfold Kind.Separates
    rcases ht with ht | ht <;> · rw [ht]; decide
  | @terminated t ps' ts' us' hp' h' ht hs =>
    -- either the statements stand side by side, or one chain is made of both
    rcases hp'.separates_or h' with hsep | ⟨rfl, hc⟩
    · exact .unterminated hp h (hsep _ _) (.terminated hp' h' ht hs)
    · have hall := Sequence.terminated hp (h.append hc) ht hs
      rwa [List.append_assoc] at hall
  | @unterminated ps' ts' us' hp' h' hs' hs =>
    rcases hp'.separates_or h' with hsep | ⟨rfl, hc⟩
    · exact .unterminated hp h (hsep _ _) (.unterminated hp' h' hs' hs)
    · have hall := Sequence.unterminated hp (h.append hc) hs' hs
      rwa [List.append_assoc] at hall

theorem separates (h : (firstKind us .endOfText).Separates) (hk : k.Separates) :
    (firstKind us k).Separates := by
  cases us with
  | nil => exact hk
  | cons t us => exact h

end Sequence

/-- What stands behind the first token of an expression is no equals sign, if that
token is a name. -/
theorem Chain.no_assign {t : Token} {ts us : List Token} {k : Kind} (h : Chain .operand (t :: ts))
    (ht : t.kind = .identifier) (hk : firstKind us k ≠ .assign) :
    firstKind (ts ++ us) k ≠ .assign := by
  cases h with
  | signed hb _ =>
    rw [ht] at hb
    rcases hb with hb | hb <;> cases hb
  | grouped ho =>
    rw [ht] at ho
    cases ho
  | operand hb _ _ =>
    rw [ht] at hb
    rcases hb with hb | hb | hb <;> cases hb
  | identifier _ hu =>
    rcases hu.first_operator with rfl | ⟨t', us', rfl, hs, -⟩
    · exact hk
    · intro ha
      rw [List.cons_append, firstKind_cons] at ha
      rw [ha] at hs
      exact absurd hs (by decide)

theorem Opening.reads_binding {ps ts : List Token} {k : Kind} {n : Node} (hp : Opening ps)
    (hne : ps ≠ []) (h : Reads (.expression lowest n) ts k) :
    ∃ n', Reads (.binding n') (ps ++ ts) k := by
  cases hp with
  | expression => exact absurd rfl hne
  | @declaration l t a hl ht ha =>
    exact ⟨.declaration none ⟨t.text, none⟩ n, .declaration hl ht ha h⟩
  | @assignment t a ht ha => exact ⟨.assignment none ⟨t.text, none⟩ n, .assignment ht ha h⟩

/-- A statement is read with or without its semicolon. -/
theorem Opening.reads_statement {ps ts us : List Token} {k : Kind} (hp : Opening ps)
    (h : Chain .operand ts) (hu : Terminator us k) (hs : (firstKind us k).strength ≤ lowest)
    (he : firstKind us k ≠ .elseWord) (ha : firstKind us k ≠ .assign) :
    ∃ n, Reads (.statement n) (ps ++ (ts ++ us)) k := by
  obtain ⟨n, hr⟩ := h.reads hs he
  by_cases hne : ps = []
  · subst hne
    obtain ⟨t, ts, rfl, -⟩ := h.first_operand
    have hnext : firstKind (t :: ts) k = .identifier →
        firstKind ((t :: ts) ++ us).tail k ≠ .assign := by
      intro ht
      exact h.no_assign ht ha
    have hs : Reads (.statement (.expression none n)) ((t :: ts) ++ us) k :=
      .expressionStatement hr hu hnext
    exact ⟨.expression none n, hs⟩
  · obtain ⟨n', hb⟩ := hp.reads_binding hne hr
    rw [← List.append_assoc]
    exact ⟨n', .binding hb hu⟩

/-- **A sequence is read as statements**, up to the end of a block or of the text. -/
theorem Sequence.reads {ts : List Token} {k : Kind} (h : Sequence ts)
    (hk : k = .rightBrace ∨ k = .endOfText) : ∃ ns, Reads (.statements ns) ts k := by
  have hsep : k.Separates := by
    unfold Kind.Separates
    rcases hk with rfl | rfl <;> decide
  induction h with
  | nil => exact ⟨[], .noStatements⟩
  | @loop t ts us _ h _ ih =>
    obtain ⟨n, hr⟩ := h (firstKind us k)
    obtain ⟨ns, hrs⟩ := ih
    exact ⟨n :: ns, .statements hr hrs⟩
  | @terminated t ps ts us hp h ht _ ih =>
    obtain ⟨ns, hrs⟩ := ih
    obtain ⟨n, hr⟩ := hp.reads_statement h (.semicolon (k := firstKind us k) ht)
      (by rw [firstKind_cons, ht]; decide) (by rw [firstKind_cons, ht]; decide)
      (by rw [firstKind_cons, ht]; decide)
    have hall := Reads.statements hr hrs
    simp only [List.append_assoc, List.singleton_append] at hall
    exact ⟨n :: ns, hall⟩
  | @unterminated ps ts us hp h hs _ ih =>
    obtain ⟨ns, hrs⟩ := ih
    obtain ⟨hstrong, he, hsemi, ha⟩ := separates hs hsep
    obtain ⟨n, hr⟩ := hp.reads_statement h (.omitted hsemi) hstrong he ha
    have hall := Reads.statements hr hrs
    simp only [List.append_nil, List.append_assoc] at hall
    exact ⟨n :: ns, hall⟩

/-- A statement in front of a sequence may have a semicolon or none. -/
theorem Sequence.cons {ps ts us vs : List Token} (hp : Opening ps) (h : Chain .operand ts)
    (hu : OptionalSemicolon us) (hs : Sequence vs) : Sequence (ps ++ ts ++ us ++ vs) := by
  cases hu with
  | omitted =>
    have hall := Sequence.cons_unterminated hp h hs
    simpa only [List.append_nil, List.append_assoc] using hall
  | present ht =>
    have hall := Sequence.terminated hp h ht hs
    simpa only [List.append_assoc, List.singleton_append] using hall

/-- What may stand in front of a closing parenthesis, a comma or a semicolon is read there. -/
theorem Chain.reads_closed {ts : List Token} (h : Chain .operand ts) {k : Kind}
    (hk : k = .rightParen ∨ k = .comma ∨ k = .semicolon) :
    ∃ n, Reads (.expression lowest n) ts k := by
  refine h.reads ?_ ?_ <;> rcases hk with rfl | rfl | rfl <;> decide

/-! ## Derivations -/

/-- What is known of tokens that are derived from a symbol. -/
def Symbol.Read (ts : List Token) : Symbol → Prop
  | .statements => Sequence ts
  | .statement => ∀ us, Sequence us → Sequence (ts ++ us)
  | .clause => ∃ ps us, Opening ps ∧ ps ≠ [] ∧ Chain .operand us ∧ ts = ps ++ us
  | .block => ∀ k, ∃ n, Reads (.block n) ts k
  | .expression => Chain .operand ts
  | .arguments => ∀ c k, c.kind = .rightParen → ∃ ns, Reads (.arguments ns) (ts ++ [c]) k
  | .conditional => ∀ k ≠ .elseWord, ∃ n, Reads (.conditional n) ts k

/-- **What is derived is read.** -/
theorem Derives.read {symbol : Symbol} {ts : List Token} (h : Derives symbol ts)
    (hl : Readable ts) : symbol.Read ts := by
  induction h with
  | noStatements => exact .nil
  | statements _ _ ih₁ ih₂ =>
    rw [readable_append] at hl
    exact ih₁ hl.1 _ (ih₂ hl.2)
  | @binding ts us _ hs ih =>
    rw [readable_append] at hl
    obtain ⟨ps, vs, hp, -, hc, rfl⟩ := ih hl.1
    exact fun xs hxs => .cons hp hc hs hxs
  | @expressionStatement ts us _ hs ih =>
    rw [readable_append] at hl
    exact fun xs hxs => .cons .expression (ih hl.1) hs hxs
  | @whileLoop w o c ts us hw ho _ hc _ ih₁ ih₂ =>
    simp only [readable_cons, readable_append] at hl
    obtain ⟨condition, hr⟩ := (ih₁ hl.2.2.1).reads_closed (.inl rfl)
    refine fun xs hxs => .loop (.inl hw) (fun k => ?_) hxs
    obtain ⟨body, hb⟩ := ih₂ hl.2.2.2.2 k
    exact ⟨.whileLoop none condition body, .whileLoop hw ho hr hc hb⟩
  | @forLoop f o s₁ s₂ c ts us vs xs hf ho _ h₁ _ h₂ _ hc _ ih₁ ih₂ ih₃ ih₄ =>
    simp only [readable_cons, readable_append] at hl
    obtain ⟨ps, ts, hp, hne, hi, rfl⟩ := ih₁ hl.2.2.1
    obtain ⟨ps', vs, hp', hne', hpost, rfl⟩ := ih₃ hl.2.2.2.2.2.2.1
    obtain ⟨n₁, hr₁⟩ := hi.reads_closed (.inr (.inr rfl))
    obtain ⟨n₂, hr₂⟩ := (ih₂ hl.2.2.2.2.1).reads_closed (.inr (.inr rfl))
    obtain ⟨n₃, hr₃⟩ := hpost.reads_closed (.inl rfl)
    obtain ⟨init, hinit⟩ := hp.reads_binding hne hr₁
    obtain ⟨post, hpost⟩ := hp'.reads_binding hne' hr₃
    refine fun us hus => .loop (.inr hf) (fun k => ?_) hus
    obtain ⟨body, hb⟩ := ih₄ hl.2.2.2.2.2.2.2.2 k
    exact ⟨.forLoop none init n₂ post body, .forLoop hf ho hinit h₁ hr₂ h₂ hpost hc hb⟩
  | @declaration l t a ts h₁ ht ha _ ih =>
    simp only [readable_cons] at hl
    exact ⟨[l, t, a], ts, .declaration h₁ ht ha, by simp, ih hl.2.2.2, rfl⟩
  | @assignment t a ts ht ha _ ih =>
    simp only [readable_cons] at hl
    exact ⟨[t, a], ts, .assignment ht ha, by simp, ih hl.2.2, rfl⟩
  | block ho _ hc ih =>
    simp only [readable_cons, readable_append] at hl
    intro k
    obtain ⟨ns, hr⟩ := (ih hl.2.1).reads (.inl rfl)
    exact ⟨.block none ns, .block ho hr hc⟩
  | identifier ht => exact .identifier ht .stop
  | @integer t ht =>
    simp only [readable_cons] at hl
    have hoperand : ∀ k ≠ .elseWord, ∃ n, Reads (.operand n) [t] k := fun k _ =>
      ⟨.integer none (Text.digitsValue t.text.toList), .integer ht (hl.1 ht)⟩
    exact .operand (.inl ht) hoperand .stop
  | grouped ho _ hc ih =>
    simp only [readable_cons, readable_append] at hl
    obtain ⟨n, hr⟩ := (ih hl.2.1).reads_closed (.inl rfl)
    exact .grouped ho hr hc .stop
  | signed ht _ ih =>
    simp only [readable_cons] at hl
    exact .signed ht (ih hl.2)
  | infixed _ ho _ ih₁ ih₂ =>
    simp only [readable_cons, readable_append] at hl
    exact (ih₁ hl.1).append (.infixed ho (ih₂ hl.2.2))
  | @call o c ts us _ ho _ hc ih₁ ih₂ =>
    simp only [readable_cons, readable_append] at hl
    have hall := (ih₁ hl.1).append (.call ho (fun k => ih₂ hl.2.2.1 c k hc) .stop)
    rwa [List.append_nil] at hall
  | @function f o c ps ts names hf ho hps hc _ ih =>
    simp only [readable_cons, readable_append] at hl
    have hoperand : ∀ k ≠ .elseWord, ∃ n, Reads (.operand n) (f :: o :: (ps ++ c :: ts)) k := by
      intro k _
      obtain ⟨body, hb⟩ := ih hl.2.2.2.2 k
      refine ⟨.function none names body, ?_⟩
      rw [List.append_cons]
      exact .function hf ho (hps.parameters hc) hb
    have hall := Chain.operand (.inr (.inl hf)) hoperand .stop
    rwa [List.append_nil] at hall
  | @choice ts _ ih =>
    obtain ⟨n, hr⟩ := ih hl .endOfText (by decide)
    obtain ⟨t, us, rfl, ht⟩ := hr.first trivial
    have hoperand : ∀ k ≠ .elseWord, ∃ n, Reads (.operand n) (t :: us) k := by
      intro k hk
      obtain ⟨n', hr'⟩ := ih hl k hk
      exact ⟨n', .choice hr'⟩
    have hall := Chain.operand (.inr (.inr ht)) hoperand .stop
    rwa [List.append_nil] at hall
  | noArguments => exact fun c k hc => ⟨[], .noArguments hc⟩
  | lastArgument _ ih =>
    intro c k hc
    obtain ⟨n, hr⟩ := (ih hl).reads_closed (.inl rfl)
    exact ⟨[n], .arguments (by rwa [firstKind_cons, hc]) (.lastArgument hc)⟩
  | nextArgument _ hcomma _ hne ih₁ ih₂ =>
    simp only [readable_cons, readable_append] at hl
    intro c k hc
    obtain ⟨n, hr⟩ := (ih₁ hl.1).reads_closed (.inr (.inl rfl))
    obtain ⟨ns, hrs⟩ := ih₂ hl.2.2 c k hc
    exact ⟨n :: ns, hr.arguments_cons hcomma hne hrs⟩
  | ifOnly hi ho _ hc _ ih₁ ih₂ =>
    simp only [readable_cons, readable_append] at hl
    obtain ⟨condition, hr⟩ := (ih₁ hl.2.2.1).reads_closed (.inl rfl)
    intro k hk
    obtain ⟨consequence, hb⟩ := ih₂ hl.2.2.2.2 k
    exact ⟨.conditional none condition consequence .missing, .ifOnly hi ho hr hc hb hk⟩
  | ifElse hi ho _ hc _ he _ ih₁ ih₂ ih₃ =>
    simp only [readable_cons, readable_append] at hl
    obtain ⟨condition, hr⟩ := (ih₁ hl.2.2.1).reads_closed (.inl rfl)
    intro k hk
    obtain ⟨consequence, hb⟩ := ih₂ hl.2.2.2.2.1 .elseWord
    obtain ⟨alternative, ha⟩ := ih₃ hl.2.2.2.2.2.2 k
    exact ⟨.conditional none condition consequence alternative, .ifElse hi ho hr hc hb he ha⟩
  | elseIf hi ho _ hc _ he _ ih₁ ih₂ ih₃ =>
    simp only [readable_cons, readable_append] at hl
    obtain ⟨condition, hr⟩ := (ih₁ hl.2.2.1).reads_closed (.inl rfl)
    intro k hk
    obtain ⟨consequence, hb⟩ := ih₂ hl.2.2.2.2.1 .elseWord
    obtain ⟨nested, hn⟩ := ih₃ hl.2.2.2.2.2.2 k hk
    exact ⟨.conditional none condition consequence (.block none [.expression none nested]),
      .elseIf hi ho hr hc hb he hn⟩

end Ember

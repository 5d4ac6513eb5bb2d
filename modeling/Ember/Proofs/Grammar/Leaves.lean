import Ember.Proofs.Grammar.Sound

/-!
# Reading from the left

`Leaves k r ts us` says that the tokens `ts`, in front of a token of kind `k`, start with
a stretch that is read as `r`, and that `us` is left of them. The first tokens decide how
a stretch is read, and each part of it leaves what the next one starts with. So what is
known of the first tokens tells what has been read of them.
-/

namespace Ember

/-- The tokens start with a stretch that is read so, and the others are left. -/
def Leaves (k : Kind) (r : Reading) (ts us : List Token) : Prop :=
  ∃ vs, ts = vs ++ us ∧ Reads r vs (firstKind us k)

/-- The semicolon behind a statement is taken, if there is one. -/
def Terminates (k : Kind) (ts us : List Token) : Prop :=
  (∃ t, ts = t :: us ∧ t.kind = .semicolon) ∨ us = ts ∧ firstKind ts k ≠ .semicolon

variable {k : Kind} {r : Reading} {t : Token} {ts us : List Token} {above : Nat}
  {n left : Node} {ns : List Node}

/-- What is read of some tokens leaves the others. -/
theorem Reads.leaves (h : Reads r ts (firstKind us k)) : Leaves k r (ts ++ us) us :=
  ⟨ts, rfl, h⟩

/-- Something read in front of something else. -/
theorem leaves_append {vs ws : List Token} (h : Reads r vs (firstKind ws (firstKind us k))) :
    Leaves k r (vs ++ ws ++ us) (ws ++ us) :=
  ⟨vs, List.append_assoc .., by rwa [firstKind_append]⟩

/-- What is read in front of a token leaves it. -/
theorem leaves_cons {vs : List Token} {c : Token} {k' : Kind} (h : Reads r vs k')
    (hc : c.kind = k') : Leaves k r (vs ++ c :: us) (c :: us) :=
  ⟨vs, rfl, by rwa [firstKind_cons, hc]⟩

theorem Terminator.terminates {vs : List Token} (h : Terminator vs (firstKind us k)) :
    Terminates k (vs ++ us) us := by
  cases h with
  | semicolon ht => exact .inl ⟨_, rfl, ht⟩
  | omitted hk => exact .inr ⟨rfl, hk⟩

/-! ## Names -/

/-- Further parameters end at one place only. -/
theorem MoreParameters.rest_unique {ts us vs ws : List Token} {names names' : List Name}
    (h : MoreParameters ts names) (h' : MoreParameters us names') (he : ts ++ vs = us ++ ws) :
    vs = ws := by
  induction h generalizing us names' with
  | close hc =>
    cases h' with
    | close => exact (List.cons.inj he).2
    | next hc' =>
      rw [← (List.cons.inj he).1, hc] at hc'
      cases hc'
  | next hc _ _ ih =>
    cases h' with
    | close hc' =>
      rw [← (List.cons.inj he).1, hc] at hc'
      cases hc'
    | next _ _ h' => exact ih h' (List.cons.inj (List.cons.inj he).2).2

/-- Parameters end with the first closing parenthesis. -/
theorem Parameters.rest_unique {ts us vs ws : List Token} {names names' : List Name}
    (h : Parameters ts names) (h' : Parameters us names') (he : ts ++ vs = us ++ ws) : vs = ws := by
  cases h with
  | none hc =>
    cases h' with
    | none => exact (List.cons.inj he).2
    | some ht =>
      rw [← (List.cons.inj he).1, hc] at ht
      cases ht
  | some ht h =>
    cases h' with
    | none hc =>
      rw [← (List.cons.inj he).1, ht] at hc
      cases hc
    | some _ h' => exact h.rest_unique h' (List.cons.inj he).2

namespace Leaves

/-! ## Expressions -/

/-- An expression leaves what the operators behind its operand leave. -/
theorem expression (h : Leaves k (.expression above n) ts us) :
    ∃ left vs, Leaves k (.operand left) ts vs ∧ Leaves k (.operators above left n) vs us := by
  obtain ⟨vs, rfl, h⟩ := h
  cases h with
  | expression h₁ h₂ => exact ⟨_, _, leaves_append h₁, h₂.leaves⟩

/-- What an operand is, by its first token. -/
def Operand (k : Kind) (n : Node) (t : Token) (ts us : List Token) : Prop :=
  match t.kind with
  | .identifier => us = ts ∧ ∃ span, n = .identifier span t.text
  | .integer => us = ts ∧ t.text.length ≤ maxDigits ∧
      ∃ span, n = .integer span (Text.digitsValue t.text.toList)
  | .bang | .minus =>
    ∃ span e, n = .unary span t.text e ∧ Leaves k (.expression signStrength e) ts us
  | .leftParen => ∃ c, c.kind = .rightParen ∧ Leaves k (.expression lowest n) ts (c :: us)
  | .ifWord => Leaves k (.conditional n) (t :: ts) us
  | .functionWord => ∃ span names body o ps vs, n = .function span names body ∧
      ts = o :: (ps ++ vs) ∧ o.kind = .leftParen ∧ Parameters ps names ∧
      Leaves k (.block body) vs us
  | _ => False

/-- What an operand leaves depends on its first token. -/
theorem operand (h : Leaves k (.operand n) (t :: ts) us) : Operand k n t ts us := by
  obtain ⟨vs, he, h⟩ := h
  unfold Operand
  cases h with
  | identifier ht =>
    obtain ⟨rfl, rfl⟩ := List.cons.inj he
    simp [ht]
  | integer ht hl =>
    obtain ⟨rfl, rfl⟩ := List.cons.inj he
    simp [ht, hl]
  | signed ht h =>
    obtain ⟨rfl, rfl⟩ := List.cons.inj he
    rcases ht with ht | ht
    · simp only [ht]
      exact ⟨_, _, rfl, h.leaves⟩
    · simp only [ht]
      exact ⟨_, _, rfl, h.leaves⟩
  | grouped ho h hc =>
    obtain ⟨rfl, rfl⟩ := List.cons.inj he
    simp only [ho]
    refine ⟨_, hc, ?_⟩
    change Leaves k _ (_ ++ [_] ++ us) _
    rw [← List.append_cons]
    exact leaves_cons h hc
  | choice h =>
    obtain ⟨t', ts', rfl, ht⟩ := h.first trivial
    obtain ⟨rfl, rfl⟩ := List.cons.inj he
    change t.kind = .ifWord at ht
    simp only [ht]
    exact h.leaves
  | @function f o ps ts' _ span names body hf ho hps h =>
    obtain ⟨rfl, rfl⟩ := List.cons.inj he
    simp only [hf]
    exact ⟨span, names, body, o, ps, ts' ++ us, rfl, by simp, ho, hps, h.leaves⟩

/-- Operators leave everything, or what is left behind the first one and those after it. -/
theorem operators (h : Leaves k (.operators above left n) ts us) :
    (us = ts ∧ n = left ∧ (firstKind ts k).strength ≤ above) ∨
    ∃ op vs ws span, ts = op :: vs ∧ above < op.kind.strength ∧
      ((op.kind ≠ .leftParen ∧ ∃ right, Leaves k (.expression op.kind.strength right) vs ws ∧
          Leaves k (.operators above (.binary span left op.text right) n) ws us) ∨
        (op.kind = .leftParen ∧ ∃ args, Leaves k (.arguments args) vs ws ∧
          Leaves k (.operators above (.call span left args) n) ws us)) := by
  obtain ⟨vs, rfl, h⟩ := h
  cases h with
  | stop hs => exact .inl ⟨rfl, rfl, hs⟩
  | infixed hs ho h₁ h₂ =>
    exact .inr ⟨_, _, _, _, rfl, hs, .inl ⟨ho, _, leaves_append h₁, h₂.leaves⟩⟩
  | call hs ho h₁ h₂ =>
    exact .inr ⟨_, _, _, _, rfl, hs, .inr ⟨ho, _, leaves_append h₁, h₂.leaves⟩⟩

/-- Weak tokens end the operators. -/
theorem operators_stop (h : Leaves k (.operators above left n) ts us)
    (hs : (firstKind ts k).strength ≤ above) : us = ts ∧ n = left := by
  rcases h.operators with ⟨hu, hn, -⟩ | ⟨op, vs, ws, span, rfl, hlt, -⟩
  · exact ⟨hu, hn⟩
  · exact absurd hs (Nat.not_le.2 hlt)

/-- Arguments are closed at once, or leave what those behind the first one leave. -/
theorem arguments (h : Leaves k (.arguments ns) ts us) :
    (∃ c, ts = c :: us ∧ c.kind = .rightParen ∧ ns = []) ∨
    ∃ n rest vs, ns = n :: rest ∧ Leaves k (.expression lowest n) ts vs ∧
      Leaves k (.moreArguments rest) vs us := by
  obtain ⟨vs, rfl, h⟩ := h
  cases h with
  | noArguments hc => exact .inl ⟨_, rfl, hc, rfl⟩
  | arguments h₁ h₂ => exact .inr ⟨_, _, _, rfl, leaves_append h₁, h₂.leaves⟩

/-- Further arguments are closed, or leave what those behind the next one leave. -/
theorem moreArguments (h : Leaves k (.moreArguments ns) ts us) :
    (∃ c, ts = c :: us ∧ c.kind = .rightParen ∧ ns = []) ∨
    ∃ c n rest vs ws, ts = c :: vs ∧ c.kind = .comma ∧ ns = n :: rest ∧
      Leaves k (.expression lowest n) vs ws ∧ Leaves k (.moreArguments rest) ws us := by
  obtain ⟨vs, rfl, h⟩ := h
  cases h with
  | lastArgument hc => exact .inl ⟨_, rfl, hc, rfl⟩
  | nextArgument hc h₁ h₂ =>
    exact .inr ⟨_, _, _, _, _, rfl, hc, rfl, leaves_append h₁, h₂.leaves⟩

/-- The second branch of a conditional, with its `else`. -/
def Alternative (k : Kind) (n : Node) (ts us : List Token) : Prop :=
  (us = ts ∧ firstKind ts k ≠ .elseWord ∧ n = .missing) ∨
    ∃ e vs, ts = e :: vs ∧ e.kind = .elseWord ∧
      (Leaves k (.block n) vs us ∨
        ∃ span span₁ nested, Leaves k (.conditional nested) vs us ∧
          n = .block span [.expression span₁ nested])

/-- A conditional, up to what stands behind its first block. -/
theorem conditional (h : Leaves k (.conditional n) ts us) :
    ∃ i o c vs ws xs span condition consequence alternative, ts = i :: o :: vs ∧
      i.kind = .ifWord ∧ o.kind = .leftParen ∧
      Leaves k (.expression lowest condition) vs (c :: ws) ∧ c.kind = .rightParen ∧
      Leaves k (.block consequence) ws xs ∧
      Alternative k alternative xs us ∧
      n = .conditional span condition consequence alternative := by
  obtain ⟨vs, rfl, h⟩ := h
  cases h with
  | @ifOnly i o c ts us' _ span condition consequence hi ho h₁ hc h₂ hk =>
    refine ⟨i, o, c, ts ++ c :: (us' ++ us), us' ++ us, us, span, condition, consequence, _, ?_, hi,
      ho, leaves_cons h₁ hc, hc, h₂.leaves, .inl ⟨rfl, hk, rfl⟩, rfl⟩
    simp
  | @ifElse i o c e ts us' vs _ span condition consequence alternative hi ho h₁ hc h₂ he h₃ =>
    refine ⟨i, o, c, ts ++ c :: (us' ++ e :: (vs ++ us)), us' ++ e :: (vs ++ us), e :: (vs ++ us),
      span, condition, consequence, _, ?_, hi, ho, leaves_cons h₁ hc, hc, leaves_cons h₂ he,
      .inr ⟨e, vs ++ us, rfl, he, .inl h₃.leaves⟩, rfl⟩
    simp
  | @elseIf i o c e ts us' vs _ span span₁ span₂ condition consequence nested hi ho h₁ hc h₂ he
      h₃ =>
    refine ⟨i, o, c, ts ++ c :: (us' ++ e :: (vs ++ us)), us' ++ e :: (vs ++ us), e :: (vs ++ us),
      span, condition, consequence, _, ?_, hi, ho, leaves_cons h₁ hc, hc, leaves_cons h₂ he,
      .inr ⟨e, vs ++ us, rfl, he, .inr ⟨span₁, span₂, nested, h₃.leaves, rfl⟩⟩, rfl⟩
    simp

/-! ## Statements -/

/-- A block leaves what stands behind its closing brace. -/
theorem block (h : Leaves k (.block n) ts us) :
    ∃ o c vs span ns, ts = o :: vs ∧ o.kind = .leftBrace ∧ c.kind = .rightBrace ∧
      Leaves k (.statements ns) vs (c :: us) ∧ n = .block span ns := by
  obtain ⟨vs, rfl, h⟩ := h
  cases h with
  | @block o c ts _ span ns ho h hc =>
    refine ⟨o, c, ts ++ c :: us, span, ns, ?_, ho, hc, leaves_cons h hc, rfl⟩
    simp

/-- Statements leave everything, or what those behind the first one leave. -/
theorem statements (h : Leaves k (.statements ns) ts us) :
    (ns = [] ∧ us = ts) ∨
    ∃ n rest vs, ns = n :: rest ∧ Leaves k (.statement n) ts vs ∧
      Leaves k (.statements rest) vs us := by
  obtain ⟨vs, rfl, h⟩ := h
  cases h with
  | noStatements => exact .inl ⟨rfl, rfl⟩
  | statements h₁ h₂ => exact .inr ⟨_, _, _, rfl, leaves_append h₁, h₂.leaves⟩

/-- A declaration or an assignment leaves what its value leaves. -/
theorem binding (h : Leaves k (.binding n) ts us) :
    (∃ l t a vs span span₁ value, ts = l :: t :: a :: vs ∧ l.kind = .letWord ∧
      t.kind = .identifier ∧ a.kind = .assign ∧ Leaves k (.expression lowest value) vs us ∧
      n = .declaration span ⟨t.text, span₁⟩ value) ∨
    ∃ t a vs span span₁ value, ts = t :: a :: vs ∧ t.kind = .identifier ∧ a.kind = .assign ∧
      Leaves k (.expression lowest value) vs us ∧ n = .assignment span ⟨t.text, span₁⟩ value := by
  obtain ⟨vs, rfl, h⟩ := h
  cases h with
  | declaration hl ht ha h =>
    exact .inl ⟨_, _, _, _, _, _, _, rfl, hl, ht, ha, h.leaves, rfl⟩
  | assignment ht ha h => exact .inr ⟨_, _, _, _, _, _, rfl, ht, ha, h.leaves, rfl⟩

/-- What a statement is read as. -/
inductive Statement (k : Kind) (ts us : List Token) : Node → Prop
  | binding {vs : List Token} {n : Node} :
      Leaves k (.binding n) ts vs → Terminates k vs us → Statement k ts us n
  | expression {vs : List Token} {span : Option Span} {e : Node} :
      Leaves k (.expression lowest e) ts vs → Terminates k vs us →
      (firstKind ts k = .identifier → firstKind ts.tail k ≠ .assign) →
      Statement k ts us (.expression span e)
  | whileLoop {w o c : Token} {vs ws : List Token} {span : Option Span} {condition body : Node} :
      ts = w :: o :: vs → w.kind = .whileWord → o.kind = .leftParen →
      Leaves k (.expression lowest condition) vs (c :: ws) → c.kind = .rightParen →
      Leaves k (.block body) ws us → Statement k ts us (.whileLoop span condition body)
  | forLoop {f o s₁ s₂ c : Token} {vs ws xs ys : List Token} {span : Option Span}
      {init condition post body : Node} :
      ts = f :: o :: vs → f.kind = .forWord → o.kind = .leftParen →
      Leaves k (.binding init) vs (s₁ :: ws) → s₁.kind = .semicolon →
      Leaves k (.expression lowest condition) ws (s₂ :: xs) → s₂.kind = .semicolon →
      Leaves k (.binding post) xs (c :: ys) → c.kind = .rightParen →
      Leaves k (.block body) ys us → Statement k ts us (.forLoop span init condition post body)

/-- What a statement leaves depends on its first tokens. -/
theorem statement (h : Leaves k (.statement n) ts us) : Statement k ts us n := by
  obtain ⟨vs, rfl, h⟩ := h
  cases h with
  | binding h hu => exact .binding (leaves_append h) (hu.terminates)
  | expressionStatement h hu hi =>
    refine .expression (leaves_append h) (hu.terminates) ?_
    obtain ⟨t, ts, rfl, -⟩ := h.first trivial
    intro ht
    have hne := hi ht
    rwa [List.cons_append, List.tail_cons, ← firstKind_append] at hne
  | whileLoop hw ho h₁ hc h₂ =>
    refine .whileLoop ?_ hw ho (leaves_cons h₁ hc) hc h₂.leaves
    simp
  | @forLoop f o s₁ s₂ c ts us' vs xs _ _ _ _ _ _ hf ho h₁ hs₁ h₂ hs₂ h₃ hc h₄ =>
    have hinit : Leaves k _ (ts ++ s₁ :: (us' ++ s₂ :: (vs ++ c :: (xs ++ us)))) _ :=
      leaves_cons h₁ hs₁
    have hcondition : Leaves k _ (us' ++ s₂ :: (vs ++ c :: (xs ++ us))) _ := leaves_cons h₂ hs₂
    have hpost : Leaves k _ (vs ++ c :: (xs ++ us)) _ := leaves_cons h₃ hc
    refine .forLoop ?_ hf ho hinit hs₁ hcondition hs₂ hpost hc h₄.leaves
    simp

end Leaves

end Ember

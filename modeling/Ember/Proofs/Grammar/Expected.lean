import Ember.Proofs.Grammar.Decided

/-!
# What may stand ahead

At every point of a parse something is expected of all tokens that are still ahead: that
they start with a token of some kind or with something that is read so, and that the rest is
as expected again. Such expectations are predicates on the tokens ahead, built from the
outside in (`Takes`, `Has`). The grammar says what they amount to, one first token at a
time.
-/

namespace Ember

/-- What is expected of the tokens ahead. -/
abbrev Expected := List Token → Prop

variable {K : Expected} {t o : Token} {ts us vs : List Token} {above : Nat} {n : Node}

/-- A token of the kind stands ahead, and behind it what is expected then. -/
def Takes (kind : Kind) (K : Expected) : Expected :=
  fun ts => ∃ t us, ts = t :: us ∧ t.kind = kind ∧ K us

/-- Something that is read so stands ahead, and behind it what is expected then. -/
def Has {α : Type} (read : α → Reading) (K : Expected) : Expected :=
  fun ts => ∃ a us, Leaves .endOfText (read a) ts us ∧ K us

/-- Operators and calls that bind more strongly than `above` stand ahead. -/
def HasOperators (above : Nat) (K : Expected) : Expected :=
  fun ts => ∃ left n us, Leaves .endOfText (.operators above left n) ts us ∧ K us

/-- A second branch stands ahead, or none. -/
def HasAlternative (K : Expected) : Expected :=
  fun ts => ∃ n us, Leaves.Alternative .endOfText n ts us ∧ K us

/-- A semicolon is passed if there is one. -/
def PastSemicolon (K : Expected) : Expected :=
  fun ts => ∃ us, Terminates .endOfText ts us ∧ K us

/-- Names of parameters and the closing parenthesis stand ahead. -/
def HasParameters (K : Expected) : Expected :=
  fun ts => ∃ ps names us, ts = ps ++ us ∧ Parameters ps names ∧ K us

/-- Names behind commas and the closing parenthesis stand ahead. -/
def HasMoreParameters (K : Expected) : Expected :=
  fun ts => ∃ ps names us, ts = ps ++ us ∧ MoreParameters ps names ∧ K us

theorem takes_cons {kind : Kind} : Takes kind K (t :: ts) ↔ t.kind = kind ∧ K ts := by
  constructor
  · rintro ⟨_, _, he, hk, h⟩
    obtain ⟨rfl, rfl⟩ := List.cons.inj he
    exact ⟨hk, h⟩
  · rintro ⟨hk, h⟩
    exact ⟨t, ts, rfl, hk, h⟩

theorem takes_cons_of_kind {kind : Kind} (ht : t.kind = kind) : Takes kind K (t :: ts) ↔ K ts :=
  takes_cons.trans (and_iff_right ht)

/-- A token that is expected is the first one. -/
theorem Takes.firstKind {kind : Kind} (h : Takes kind K ts) (k : Kind) :
    Ember.firstKind ts k = kind := by
  obtain ⟨t, us, rfl, hk, -⟩ := h
  exact hk

/-- Two stretches in a row. -/
theorem Leaves.seq {r r' : Reading} {k : Kind} (h : Leaves k r ts vs) (h' : Leaves k r' vs us) :
    ∃ xs ys, ts = xs ++ (ys ++ us) ∧ Reads r xs (firstKind ys (firstKind us k)) ∧
      Reads r' ys (firstKind us k) := by
  obtain ⟨xs, rfl, h⟩ := h
  obtain ⟨ys, rfl, h'⟩ := h'
  exact ⟨xs, ys, rfl, by rwa [firstKind_append] at h, h'⟩

/-- What the first token of a stretch tells. -/
theorem Leaves.first {r : Reading} {k : Kind} (h : Leaves k r (t :: ts) us) (hr : r.NotEmpty) :
    r.First t.kind := by
  obtain ⟨vs, he, h⟩ := h
  obtain ⟨t', vs', rfl, hfirst⟩ := h.first hr
  rwa [← (List.cons.inj he).1] at hfirst

/-- What takes tokens is expected where one of them stands that its rule looks for. -/
theorem Has.first {α : Type} {read : α → Reading} (h : Has read K ts)
    (hr : ∀ a, (read a).NotEmpty) : ∃ a, (read a).First (Ember.firstKind ts .endOfText) := by
  obtain ⟨a, us, ⟨vs, rfl, h⟩, -⟩ := h
  obtain ⟨t, vs, rfl, hfirst⟩ := h.first (hr a)
  exact ⟨a, hfirst⟩

/-! ## Expressions -/

/-- An expression is expected exactly where its operand is, and operators behind that. -/
theorem has_expression : Has (.expression above) K ts ↔ Has .operand (HasOperators above K) ts := by
  constructor
  · rintro ⟨n, us, h, hK⟩
    obtain ⟨left, vs, h₁, h₂⟩ := h.expression
    exact ⟨left, vs, h₁, left, n, us, h₂, hK⟩
  · rintro ⟨left, vs, h₁, left', n, us, h₂, hK⟩
    obtain ⟨xs, ys, rfl, hr₁, hr₂⟩ := h₁.seq h₂
    obtain ⟨n', hn'⟩ := hr₂.goesOn left
    exact ⟨n', us, ⟨xs ++ ys, by simp, .expression hr₁ hn'⟩, hK⟩

/-- Behind a name the operand is complete. -/
theorem has_operand_name (ht : t.kind = .identifier) : Has .operand K (t :: ts) ↔ K ts := by
  constructor
  · rintro ⟨n, us, h, hK⟩
    have hoperand := h.operand
    simp only [Leaves.Operand, ht] at hoperand
    exact hoperand.1 ▸ hK
  · exact fun hK => ⟨.identifier none t.text, ts, ⟨[t], rfl, .identifier ht⟩, hK⟩

/-- Behind a sign the expression of its operand is expected. -/
theorem has_operand_signed (ht : t.kind = .bang ∨ t.kind = .minus) :
    Has .operand K (t :: ts) ↔ Has (.expression signStrength) K ts := by
  constructor
  · rintro ⟨n, us, h, hK⟩
    have hoperand := h.operand
    rcases ht with ht | ht <;>
      · simp only [Leaves.Operand, ht] at hoperand
        obtain ⟨span, e, -, he⟩ := hoperand
        exact ⟨e, us, he, hK⟩
  · rintro ⟨e, us, ⟨xs, rfl, hr⟩, hK⟩
    exact ⟨.unary none t.text e, us, ⟨t :: xs, rfl, .signed ht hr⟩, hK⟩

/-- Behind a parenthesis an expression and the closing one are expected. -/
theorem has_operand_grouped (ht : t.kind = .leftParen) :
    Has .operand K (t :: ts) ↔ Has (.expression lowest) (Takes .rightParen K) ts := by
  constructor
  · rintro ⟨n, us, h, hK⟩
    have hoperand := h.operand
    simp only [Leaves.Operand, ht] at hoperand
    obtain ⟨c, hc, he⟩ := hoperand
    exact ⟨n, c :: us, he, c, us, rfl, hc, hK⟩
  · rintro ⟨e, _, ⟨xs, rfl, hr⟩, c, us, rfl, hc, hK⟩
    rw [firstKind_cons, hc] at hr
    exact ⟨e, us, ⟨t :: (xs ++ [c]), by simp, .grouped ht hr hc⟩, hK⟩

/-- An operand that starts with `if` is a conditional. -/
theorem has_operand_choice (ht : firstKind ts .endOfText = .ifWord) :
    Has .operand K ts ↔ Has .conditional K ts := by
  cases ts with
  | nil => cases ht
  | cons t ts =>
    rw [firstKind_cons] at ht
    constructor
    · rintro ⟨n, us, h, hK⟩
      have hoperand := h.operand
      simp only [Leaves.Operand, ht] at hoperand
      exact ⟨n, us, hoperand, hK⟩
    · rintro ⟨n, us, ⟨xs, he, hr⟩, hK⟩
      exact ⟨n, us, ⟨xs, he, .choice hr⟩, hK⟩

/-- Behind its keyword a function is expected with parameters and body. -/
theorem has_operand_function (ht : t.kind = .functionWord) :
    Has .operand K (t :: ts) ↔ Takes .leftParen (HasParameters (Has .block K)) ts := by
  constructor
  · rintro ⟨n, us, h, hK⟩
    have hoperand := h.operand
    simp only [Leaves.Operand, ht] at hoperand
    obtain ⟨span, names, body, o, ps, vs, -, rfl, ho, hps, hbody⟩ := hoperand
    exact ⟨o, _, rfl, ho, ps, names, vs, rfl, hps, body, us, hbody, hK⟩
  · rintro ⟨o, _, rfl, ho, ps, names, _, rfl, hps, body, us, ⟨xs, rfl, hr⟩, hK⟩
    exact ⟨.function none names body, us,
      ⟨t :: o :: (ps ++ xs), by simp, .function ht ho hps hr⟩, hK⟩

/-- No expression starts with another token. -/
theorem not_has_operand (ht : t.kind.beginsExpression = false) : ¬ Has .operand K (t :: ts) := by
  rintro ⟨n, us, h, -⟩
  have hfirst : t.kind.beginsExpression := h.first trivial
  rw [ht] at hfirst
  cases hfirst

/-- Where no operator binds more strongly, none is expected. -/
theorem hasOperators_stop (hs : (firstKind ts .endOfText).strength ≤ above) :
    HasOperators above K ts ↔ K ts := by
  constructor
  · rintro ⟨left, n, us, h, hK⟩
    exact (h.operators_stop hs).1 ▸ hK
  · exact fun hK => ⟨.missing, .missing, ts, ⟨[], rfl, .stop hs⟩, hK⟩

/-- Behind an operand a parenthesis opens arguments. -/
theorem hasOperators_call (hs : above < Kind.leftParen.strength)
    (ho : firstKind ts .endOfText = .leftParen) :
    HasOperators above K ts ↔ Takes .leftParen (Has .arguments (HasOperators above K)) ts := by
  constructor
  · rintro ⟨left, n, us, h, hK⟩
    rcases h.operators with ⟨-, -, hstop⟩ | ⟨o, vs, ws, span, rfl, -, hcase⟩
    · rw [ho] at hstop
      exact absurd hs (Nat.not_lt.2 hstop)
    · obtain ⟨-, args, hargs, hrest⟩ := hcase.resolve_left fun h => h.1 ho
      exact ⟨o, vs, rfl, ho, args, ws, hargs, _, n, us, hrest, hK⟩
  · rintro ⟨o, _, rfl, hk, args, vs, h₁, left, n, us, h₂, hK⟩
    obtain ⟨xs, ys, rfl, hr₁, hr₂⟩ := h₁.seq h₂
    obtain ⟨n', hn'⟩ := hr₂.goesOn (.call none .missing args)
    exact ⟨.missing, n', us, ⟨o :: (xs ++ ys), by simp, .call (hk ▸ hs) hk hr₁ hn'⟩, hK⟩

/-- Behind an operator its right operand is expected, and operators behind that. -/
theorem hasOperators_infixed (hs : above < o.kind.strength) (ho : o.kind ≠ .leftParen) :
    HasOperators above K (o :: ts) ↔
      Has (.expression o.kind.strength) (HasOperators above K) ts := by
  constructor
  · rintro ⟨left, n, us, h, hK⟩
    rcases h.operators with ⟨-, -, hstop⟩ | ⟨op, vs, ws, span, he, -, hcase⟩
    · exact absurd hs (Nat.not_lt.2 hstop)
    · obtain ⟨rfl, rfl⟩ := List.cons.inj he
      obtain ⟨-, right, hright, hrest⟩ := hcase.resolve_right fun h => ho h.1
      exact ⟨right, ws, hright, _, n, us, hrest, hK⟩
  · rintro ⟨right, vs, h₁, left, n, us, h₂, hK⟩
    obtain ⟨xs, ys, rfl, hr₁, hr₂⟩ := h₁.seq h₂
    obtain ⟨n', hn'⟩ := hr₂.goesOn (.binary none .missing o.text right)
    exact ⟨.missing, n', us, ⟨o :: (xs ++ ys), by simp, .infixed hs ho hr₁ hn'⟩, hK⟩

/-- Arguments that are not closed at once start with an expression. -/
theorem has_arguments (ht : firstKind ts .endOfText ≠ .rightParen) :
    Has .arguments K ts ↔ Has (.expression lowest) (Has .moreArguments K) ts := by
  constructor
  · rintro ⟨es, us, h, hK⟩
    rcases h.arguments with ⟨c, rfl, hc, -⟩ | ⟨n, rest, vs, -, h₁, h₂⟩
    · exact absurd hc ht
    · exact ⟨n, vs, h₁, rest, us, h₂, hK⟩
  · rintro ⟨n, vs, h₁, rest, us, h₂, hK⟩
    obtain ⟨xs, ys, rfl, hr₁, hr₂⟩ := h₁.seq h₂
    exact ⟨n :: rest, us, ⟨xs ++ ys, by simp, .arguments hr₁ hr₂⟩, hK⟩

/-- Behind a comma another argument is expected. -/
theorem has_moreArguments_comma (ht : t.kind = .comma) :
    Has .moreArguments K (t :: ts) ↔ Has (.expression lowest) (Has .moreArguments K) ts := by
  constructor
  · rintro ⟨es, us, h, hK⟩
    rcases h.moreArguments with ⟨c, he, hc, -⟩ | ⟨c, n, rest, vs, ws, he, -, -, h₁, h₂⟩
    · rw [← (List.cons.inj he).1, ht] at hc
      cases hc
    · obtain ⟨rfl, rfl⟩ := List.cons.inj he
      exact ⟨n, ws, h₁, rest, us, h₂, hK⟩
  · rintro ⟨n, vs, h₁, rest, us, h₂, hK⟩
    obtain ⟨xs, ys, rfl, hr₁, hr₂⟩ := h₁.seq h₂
    exact ⟨n :: rest, us, ⟨t :: (xs ++ ys), by simp, .nextArgument ht hr₁ hr₂⟩, hK⟩

/-- Without a comma the closing parenthesis is expected. -/
theorem has_moreArguments (ht : firstKind ts .endOfText ≠ .comma) :
    Has .moreArguments K ts ↔ Takes .rightParen K ts := by
  constructor
  · rintro ⟨es, us, h, hK⟩
    rcases h.moreArguments with ⟨c, rfl, hc, -⟩ | ⟨c, n, rest, vs, ws, rfl, hc, -, -⟩
    · exact ⟨c, us, rfl, hc, hK⟩
    · exact absurd hc ht
  · rintro ⟨c, us, rfl, hc, hK⟩
    exact ⟨_, us, ⟨[c], rfl, .lastArgument hc⟩, hK⟩

/-! ## Conditionals and functions -/

/-- Without an `else` there is no alternative. -/
theorem hasAlternative_none (ht : firstKind ts .endOfText ≠ .elseWord) :
    HasAlternative K ts ↔ K ts := by
  constructor
  · rintro ⟨n, us, ⟨rfl, -, -⟩ | ⟨e, vs, rfl, he, -⟩, hK⟩
    · exact hK
    · exact absurd he ht
  · exact fun hK => ⟨.missing, ts, .inl ⟨rfl, ht, rfl⟩, hK⟩

/-- Behind `else` a block or a conditional is expected. -/
theorem hasAlternative_else (ht : t.kind = .elseWord) :
    HasAlternative K (t :: ts) ↔ Has .block K ts ∨ Has .conditional K ts := by
  constructor
  · rintro ⟨n, us, ⟨-, hne, -⟩ | ⟨e, vs, he, -, h | ⟨_, _, nested, h, -⟩⟩, hK⟩
    · exact absurd ht hne
    · obtain ⟨rfl, rfl⟩ := List.cons.inj he
      exact .inl ⟨n, us, h, hK⟩
    · obtain ⟨rfl, rfl⟩ := List.cons.inj he
      exact .inr ⟨nested, us, h, hK⟩
  · rintro (⟨n, us, h, hK⟩ | ⟨n, us, h, hK⟩)
    · exact ⟨n, us, .inr ⟨t, ts, rfl, ht, .inl h⟩, hK⟩
    · exact ⟨_, us, .inr ⟨t, ts, rfl, ht, .inr ⟨none, none, n, h, rfl⟩⟩, hK⟩

/-- Behind `if` a condition in parentheses is expected, a block and perhaps an alternative. -/
theorem has_conditional (ht : t.kind = .ifWord) :
    Has .conditional K (t :: ts) ↔ Takes .leftParen (Has (.expression lowest)
      (Takes .rightParen (Has .block (HasAlternative K)))) ts := by
  constructor
  · rintro ⟨n, us, h, hK⟩
    obtain ⟨i, o, c, vs, ws, xs, span, condition, consequence, alternative, he, -, ho, h₁, hc, h₂,
      h₃, -⟩ := h.conditional
    obtain ⟨rfl, rfl⟩ := List.cons.inj he
    exact ⟨o, vs, rfl, ho, condition, _, h₁, c, ws, rfl, hc, consequence, xs, h₂, alternative, us,
      h₃, hK⟩
  · rintro ⟨o, _, rfl, ho, condition, _, ⟨xs, rfl, h₁⟩, c, _, rfl, hc, consequence, _, h₂,
      alternative, us, h₃, hK⟩
    rw [firstKind_cons, hc] at h₁
    obtain ⟨ys, rfl, hr₂⟩ := h₂
    rcases h₃ with ⟨rfl, hne, -⟩ | ⟨e, _, rfl, he, ⟨zs, rfl, h₃⟩ | ⟨_, _, nested, ⟨zs, rfl, h₃⟩, -⟩⟩
    · exact ⟨.conditional none condition consequence .missing, us,
        ⟨t :: o :: (xs ++ c :: ys), by simp, .ifOnly ht ho h₁ hc hr₂ hne⟩, hK⟩
    · rw [firstKind_cons, he] at hr₂
      exact ⟨.conditional none condition consequence alternative, us,
        ⟨t :: o :: (xs ++ c :: (ys ++ e :: zs)), by simp, .ifElse ht ho h₁ hc hr₂ he h₃⟩, hK⟩
    · rw [firstKind_cons, he] at hr₂
      exact ⟨.conditional none condition consequence (.block none [.expression none nested]), us,
        ⟨t :: o :: (xs ++ c :: (ys ++ e :: zs)), by simp, .elseIf ht ho h₁ hc hr₂ he h₃⟩, hK⟩

/-- Behind a comma another parameter is expected. -/
theorem hasMoreParameters_comma (ht : t.kind = .comma) :
    HasMoreParameters K (t :: ts) ↔ Takes .identifier (HasMoreParameters K) ts := by
  constructor
  · rintro ⟨_, names, us, he, h, hK⟩
    cases h with
    | close hc =>
      rw [← (List.cons.inj he).1, ht] at hc
      cases hc
    | next _ hi h =>
      obtain ⟨rfl, rfl⟩ := List.cons.inj he
      exact ⟨_, _, rfl, hi, _, _, us, rfl, h, hK⟩
  · rintro ⟨u, _, rfl, hu, ps, names, us, rfl, h, hK⟩
    exact ⟨t :: u :: ps, ⟨u.text, none⟩ :: names, us, rfl, .next ht hu h, hK⟩

/-- Without a comma the closing parenthesis is expected. -/
theorem hasMoreParameters (ht : firstKind ts .endOfText ≠ .comma) :
    HasMoreParameters K ts ↔ Takes .rightParen K ts := by
  constructor
  · rintro ⟨_, names, us, rfl, h, hK⟩
    cases h with
    | close hc => exact ⟨_, us, rfl, hc, hK⟩
    | next hc => exact absurd hc ht
  · rintro ⟨c, us, rfl, hc, hK⟩
    exact ⟨[c], [], us, rfl, .close hc, hK⟩

theorem hasParameters_close (ht : t.kind = .rightParen) : HasParameters K (t :: ts) ↔ K ts := by
  constructor
  · rintro ⟨_, names, us, he, h, hK⟩
    cases h with
    | none => exact (List.cons.inj he).2 ▸ hK
    | some hi =>
      rw [← (List.cons.inj he).1, ht] at hi
      cases hi
  · exact fun hK => ⟨[t], [], ts, rfl, .none ht, hK⟩

/-- Parameters that are not closed at once start with a name. -/
theorem hasParameters (ht : firstKind ts .endOfText ≠ .rightParen) :
    HasParameters K ts ↔ Takes .identifier (HasMoreParameters K) ts := by
  constructor
  · rintro ⟨_, names, us, rfl, h, hK⟩
    cases h with
    | none hc => exact absurd hc ht
    | some hi h => exact ⟨_, _, rfl, hi, _, _, us, rfl, h, hK⟩
  · rintro ⟨u, _, rfl, hu, ps, names, us, rfl, h, hK⟩
    exact ⟨u :: ps, ⟨u.text, none⟩ :: names, us, rfl, .some hu h, hK⟩

/-! ## Statements -/

/-- Behind a brace statements and the closing brace are expected. -/
theorem has_block (ht : t.kind = .leftBrace) :
    Has .block K (t :: ts) ↔ Has .statements (Takes .rightBrace K) ts := by
  constructor
  · rintro ⟨n, us, h, hK⟩
    obtain ⟨o, c, vs, span, ns, he, -, hc, h, -⟩ := h.block
    obtain ⟨rfl, rfl⟩ := List.cons.inj he
    exact ⟨ns, _, h, c, us, rfl, hc, hK⟩
  · rintro ⟨ns, _, ⟨xs, rfl, hr⟩, c, us, rfl, hc, hK⟩
    rw [firstKind_cons, hc] at hr
    exact ⟨.block none ns, us, ⟨t :: (xs ++ [c]), by simp, .block ht hr hc⟩, hK⟩

/-- Statements end here, or one more is expected. -/
theorem has_statements :
    Has .statements K ts ↔ K ts ∨ Has .statement (Has .statements K) ts := by
  constructor
  · rintro ⟨ns, us, h, hK⟩
    rcases h.statements with ⟨-, rfl⟩ | ⟨n, rest, vs, -, h₁, h₂⟩
    · exact .inl hK
    · exact .inr ⟨n, vs, h₁, rest, us, h₂, hK⟩
  · rintro (hK | ⟨n, vs, h₁, rest, us, h₂, hK⟩)
    · exact ⟨[], ts, ⟨[], rfl, .noStatements⟩, hK⟩
    · obtain ⟨xs, ys, rfl, hr₁, hr₂⟩ := h₁.seq h₂
      exact ⟨n :: rest, us, ⟨xs ++ ys, by simp, .statements hr₁ hr₂⟩, hK⟩

/-- Behind `let` a name, an equals sign and a value are expected. -/
theorem has_binding_let (ht : t.kind = .letWord) :
    Has .binding K (t :: ts) ↔
      Takes .identifier (Takes .assign (Has (.expression lowest) K)) ts := by
  constructor
  · rintro ⟨n, us, h, hK⟩
    obtain ⟨l, i, a, vs, _, _, value, he, -, hi, ha, hv, -⟩ | ⟨i, _, _, _, _, _, he, hi, -⟩ :=
      h.binding
    · obtain ⟨rfl, rfl⟩ := List.cons.inj he
      exact ⟨i, _, rfl, hi, a, vs, rfl, ha, value, us, hv, hK⟩
    · rw [← (List.cons.inj he).1, ht] at hi
      cases hi
  · rintro ⟨i, _, rfl, hi, a, _, rfl, ha, value, us, ⟨xs, rfl, hr⟩, hK⟩
    exact ⟨.declaration none ⟨i.text, none⟩ value, us,
      ⟨t :: i :: a :: xs, rfl, .declaration ht hi ha hr⟩, hK⟩

/-- Behind a name an equals sign and a value are expected. -/
theorem has_binding_name (ht : t.kind = .identifier) :
    Has .binding K (t :: ts) ↔ Takes .assign (Has (.expression lowest) K) ts := by
  constructor
  · rintro ⟨n, us, h, hK⟩
    obtain ⟨l, _, _, _, _, _, _, he, hl, -⟩ | ⟨i, a, vs, _, _, value, he, -, ha, hv, -⟩ := h.binding
    · rw [← (List.cons.inj he).1, ht] at hl
      cases hl
    · obtain ⟨rfl, rfl⟩ := List.cons.inj he
      exact ⟨a, vs, rfl, ha, value, us, hv, hK⟩
  · rintro ⟨a, _, rfl, ha, value, us, ⟨xs, rfl, hr⟩, hK⟩
    exact ⟨.assignment none ⟨t.text, none⟩ value, us,
      ⟨t :: a :: xs, rfl, .assignment ht ha hr⟩, hK⟩

/-- No binding starts with another token. -/
theorem not_has_binding (hl : t.kind ≠ .letWord) (hi : t.kind ≠ .identifier) :
    ¬ Has .binding K (t :: ts) := by
  rintro ⟨n, us, h, -⟩
  exact (h.first trivial).elim hl hi

/-- No statement starts with the end of those that it stands among. -/
theorem not_has_statement
    (h : firstKind ts .endOfText = .rightBrace ∨ firstKind ts .endOfText = .endOfText) :
    ¬ Has .statement K ts := by
  intro hst
  obtain ⟨n, hfirst⟩ := hst.first fun _ => trivial
  rw [Reading.First] at hfirst
  rcases h with h | h
  · rw [h] at hfirst
    exact absurd hfirst (by decide)
  · rw [h] at hfirst
    exact absurd hfirst (by decide)

/-- What is passed at the end of a statement is a semicolon or nothing. -/
theorem Terminates.terminator {k : Kind} (h : Terminates k ts us) :
    ∃ xs, ts = xs ++ us ∧ Terminator xs (firstKind us k) := by
  rcases h with ⟨t, rfl, ht⟩ | ⟨rfl, hk⟩
  · exact ⟨[t], rfl, .semicolon ht⟩
  · exact ⟨[], rfl, .omitted hk⟩

/-- A declaration or an assignment as a statement. -/
theorem has_statement_binding
    (ht : t.kind = .letWord ∨ t.kind = .identifier ∧ firstKind ts .endOfText = .assign) :
    Has .statement K (t :: ts) ↔ Has .binding (PastSemicolon K) (t :: ts) := by
  constructor
  · rintro ⟨n, us, h, hK⟩
    cases h.statement with
    | binding h hu => exact ⟨n, _, h, us, hu, hK⟩
    | expression hx _ hi =>
      rcases ht with ht | ⟨ht, ha⟩
      · have hfirst : t.kind.beginsExpression := hx.first trivial
        rw [ht] at hfirst
        cases hfirst
      · exact absurd ha (hi ht)
    | whileLoop he hw =>
      rw [← (List.cons.inj he).1] at hw
      rcases ht with ht | ⟨ht, -⟩ <;> · rw [ht] at hw; cases hw
    | forLoop he hf =>
      rw [← (List.cons.inj he).1] at hf
      rcases ht with ht | ⟨ht, -⟩ <;> · rw [ht] at hf; cases hf
  · rintro ⟨n, _, ⟨xs, he, hr⟩, us, hu, hK⟩
    obtain ⟨ys, rfl, hys⟩ := hu.terminator
    rw [firstKind_append] at hr
    exact ⟨n, us, ⟨xs ++ ys, by rw [he, List.append_assoc], .binding hr hys⟩, hK⟩

/-- An expression as a statement. -/
theorem has_statement_expression
    (ht : t.kind ≠ .letWord ∧ t.kind ≠ .whileWord ∧ t.kind ≠ .forWord)
    (hi : t.kind = .identifier → firstKind ts .endOfText ≠ .assign) :
    Has .statement K (t :: ts) ↔ Has (.expression lowest) (PastSemicolon K) (t :: ts) := by
  constructor
  · rintro ⟨n, us, h, hK⟩
    cases h.statement with
    | binding h _ =>
      rcases h.binding with ⟨l, _, _, _, _, _, _, he, hl, -⟩ | ⟨i, a, _, _, _, _, he, hi', ha, -⟩
      · exact absurd ((List.cons.inj he).1 ▸ hl) ht.1
      · obtain ⟨rfl, rfl⟩ := List.cons.inj he
        exact absurd ha (hi hi')
    | expression hx hu => exact ⟨_, _, hx, us, hu, hK⟩
    | whileLoop he hw => exact absurd ((List.cons.inj he).1 ▸ hw) ht.2.1
    | forLoop he hf => exact absurd ((List.cons.inj he).1 ▸ hf) ht.2.2
  · rintro ⟨n, _, ⟨xs, he, hr⟩, us, hu, hK⟩
    obtain ⟨ys, rfl, hys⟩ := hu.terminator
    rw [firstKind_append] at hr
    refine ⟨.expression none n, us, ⟨xs ++ ys, by rw [he, List.append_assoc],
      .expressionStatement hr hys fun hx => ?_⟩, hK⟩
    -- the second token of the statement is the second one of all
    obtain ⟨t', xs, rfl, -⟩ := hr.first trivial
    obtain ⟨rfl, rfl⟩ := List.cons.inj he
    rw [List.cons_append, List.tail_cons, ← firstKind_append, List.append_assoc]
    exact hi hx

/-- Behind `while` a condition in parentheses and a block are expected. -/
theorem has_statement_while (ht : t.kind = .whileWord) :
    Has .statement K (t :: ts) ↔
      Takes .leftParen (Has (.expression lowest) (Takes .rightParen (Has .block K))) ts := by
  constructor
  · rintro ⟨n, us, h, hK⟩
    cases h.statement with
    | binding hb _ =>
      have hfirst : t.kind = .letWord ∨ t.kind = .identifier := hb.first trivial
      rcases hfirst with hfirst | hfirst <;> · rw [ht] at hfirst; cases hfirst
    | expression hx _ _ =>
      have hfirst : t.kind.beginsExpression := hx.first trivial
      rw [ht] at hfirst
      cases hfirst
    | whileLoop he _ ho h₁ hc h₂ =>
      obtain ⟨rfl, rfl⟩ := List.cons.inj he
      exact ⟨_, _, rfl, ho, _, _, h₁, _, _, rfl, hc, _, us, h₂, hK⟩
    | forLoop he hf =>
      rw [← (List.cons.inj he).1, ht] at hf
      cases hf
  · rintro ⟨o, _, rfl, ho, condition, _, ⟨xs, rfl, h₁⟩, c, _, rfl, hc, body, us, ⟨ys, rfl, h₂⟩, hK⟩
    rw [firstKind_cons, hc] at h₁
    exact ⟨.whileLoop none condition body, us,
      ⟨t :: o :: (xs ++ c :: ys), by simp, .whileLoop ht ho h₁ hc h₂⟩, hK⟩

/-- Behind `for` three clauses in parentheses and a block are expected. -/
theorem has_statement_for (ht : t.kind = .forWord) :
    Has .statement K (t :: ts) ↔
      Takes .leftParen (Has .binding (Takes .semicolon (Has (.expression lowest)
        (Takes .semicolon (Has .binding (Takes .rightParen (Has .block K))))))) ts := by
  constructor
  · rintro ⟨n, us, h, hK⟩
    cases h.statement with
    | binding hb _ =>
      have hfirst : t.kind = .letWord ∨ t.kind = .identifier := hb.first trivial
      rcases hfirst with hfirst | hfirst <;> · rw [ht] at hfirst; cases hfirst
    | expression hx _ _ =>
      have hfirst : t.kind.beginsExpression := hx.first trivial
      rw [ht] at hfirst
      cases hfirst
    | whileLoop he hw =>
      rw [← (List.cons.inj he).1, ht] at hw
      cases hw
    | forLoop he _ ho h₁ hs₁ h₂ hs₂ h₃ hc h₄ =>
      obtain ⟨rfl, rfl⟩ := List.cons.inj he
      exact ⟨_, _, rfl, ho, _, _, h₁, _, _, rfl, hs₁, _, _, h₂, _, _, rfl, hs₂, _, _, h₃, _, _, rfl,
        hc, _, us, h₄, hK⟩
  · rintro ⟨o, _, rfl, ho, init, _, ⟨xs, rfl, h₁⟩, s₁, _, rfl, hs₁, condition, _, ⟨ys, rfl, h₂⟩,
      s₂, _, rfl, hs₂, post, _, ⟨zs, rfl, h₃⟩, c, _, rfl, hc, body, us, ⟨bs, rfl, h₄⟩, hK⟩
    rw [firstKind_cons, hs₁] at h₁
    rw [firstKind_cons, hs₂] at h₂
    rw [firstKind_cons, hc] at h₃
    exact ⟨.forLoop none init condition post body, us,
      ⟨t :: o :: (xs ++ s₁ :: (ys ++ s₂ :: (zs ++ c :: bs))), by simp,
        .forLoop ht ho h₁ hs₁ h₂ hs₂ h₃ hc h₄⟩, hK⟩

end Ember

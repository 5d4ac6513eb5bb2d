import Ember.Proofs.Grammar.Derivation
import Ember.Proofs.Grammar.Program

/-!
# Precedence and associativity

Whatever is written carefully is read as it is written (`Writes.reads`): precedence and
associativity put back the parentheses that were left out. So a source that consists of
an expression is parsed to it (`Source.parse_writes`).

A written expression is not read by itself but together with what follows, since a weak
operator behind it may take it as an operand. The induction is over all that may follow
without being drawn into the expression (`Follows`).
-/

namespace Ember

/-- A token of this kind is not drawn into an expression of the precedence before it. -/
def Follows (least : Nat) (k : Kind) : Prop :=
  (calleePrecedence ≤ least ∨ k.strength ≤ least ∧ k.strength ≤ signStrength) ∧ k ≠ .elseWord

/-- How a written part is read. An expression goes on with the operators behind it. -/
def Part.Read (ts : List Token) : Part → Prop
  | .expression least e => ∀ above vs k n, above < least → above ≤ signStrength →
      Follows least (firstKind vs k) → Reads (.operators above e n) vs k →
      Reads (.expression above n) (ts ++ vs) k
  | .arguments es => ∀ c k, c.kind = .rightParen → Reads (.arguments es) (ts ++ [c]) k
  | .conditional e => ∀ k ≠ .elseWord, Reads (.conditional e) ts k
  | .block n => ∀ k, Reads (.block n) ts k
  | .statements ns => ∀ k, Reads (.statements ns) ts k
  | .statement n => ∀ k, Reads (.statement n) ts k
  | .clause n => ∀ k, k = .semicolon ∨ k = .rightParen → Reads (.binding n) ts k

variable {ts us : List Token} {least above : Nat} {e n : Node} {k : Kind}

/-- An operand goes on with any operators. -/
theorem read_operand (h : ∀ k ≠ .elseWord, Reads (.operand e) ts k) :
    (Part.expression least e).Read ts :=
  fun _ vs k _ _ _ hk hr => .expression (h (firstKind vs k) hk.2) hr

/-- An expression in front of something that is no operator. -/
theorem Part.Read.closed (h : (Part.expression loosest e).Read ts)
    (hs : k.strength ≤ lowest) (hk : k ≠ .elseWord) : Reads (.expression lowest e) ts k := by
  have hall := h lowest [] k e (by decide) (by decide)
    ⟨.inr ⟨Nat.le_succ_of_le hs, Nat.le_trans hs (by decide)⟩, hk⟩ (.stop hs)
  rwa [List.append_nil] at hall

/-- Behind a name that starts an expression stands no equals sign, unless it stands behind
the expression. -/
theorem Reads.no_assign (h : Reads (.expression above e) ts k) (ha : lowest ≤ above)
    (hk : k ≠ .assign) (hi : firstKind ts k = .identifier) : firstKind ts.tail k ≠ .assign := by
  cases h with
  | @expression ts us _ _ left _ hl hr =>
    obtain ⟨t, ts, rfl, -⟩ := hl.first trivial
    have ht : t.kind = .identifier := hi
    cases hl with
    | identifier =>
      change firstKind us k ≠ .assign
      cases hr with
      | stop => exact hk
      | infixed hs =>
        rw [firstKind_cons]
        intro h
        rw [h] at hs
        exact absurd (Nat.lt_of_le_of_lt ha hs) (by decide)
      | call _ ho =>
        rw [firstKind_cons, ho]
        decide
    | integer h =>
      rw [ht] at h
      cases h
    | signed h =>
      rw [ht] at h
      rcases h with h | h <;> cases h
    | grouped h =>
      rw [ht] at h
      cases h
    | choice h =>
      obtain ⟨t', us', he, hif⟩ := h.starts_if
      rw [← (List.cons.inj he).1, ht] at hif
      cases hif
    | function h =>
      rw [ht] at h
      cases h

/-- What is known of an operator between two operands. -/
theorem Kind.infix_facts (h : k.isInfix) :
    lowest < k.strength ∧ k.strength ≤ signStrength ∧ k ≠ .leftParen ∧ k ≠ .elseWord := by
  revert h
  cases k <;> decide

theorem Follows.weak (h : Follows least k) (hl : least ≤ signPrecedence) :
    k.strength ≤ least ∧ k.strength ≤ signStrength := by
  rcases h.1 with h | h
  · exact absurd (Nat.le_trans h hl) (by decide)
  · exact h

theorem read_signed {t : Token} {span : Option Span} (hl : least ≤ signPrecedence)
    (ht : t.kind = .bang ∨ t.kind = .minus) (h : (Part.expression signPrecedence e).Read ts) :
    (Part.expression least (.unary span t.text e)).Read (t :: ts) := by
  intro above vs k n _ _ hk hr
  have hweak := hk.weak hl
  have hoperand := h signStrength [] (firstKind vs k) e (by decide) (Nat.le_refl _)
    ⟨.inr ⟨Nat.le_succ_of_le hweak.2, hweak.2⟩, hk.2⟩ (.stop hweak.2)
  rw [List.append_nil] at hoperand
  exact .expression (.signed ht hoperand) hr

theorem read_infixed {op : Token} {span : Option Span} {left right : Node}
    (hl : least ≤ op.kind.strength) (ho : op.kind.isInfix)
    (h₁ : (Part.expression op.kind.strength left).Read ts)
    (h₂ : (Part.expression (op.kind.strength + 1) right).Read us) :
    (Part.expression least (.binary span left op.text right)).Read (ts ++ op :: us) := by
  intro above vs k n ha ha' hk hr
  obtain ⟨-, hsign, hparen, helse⟩ := Kind.infix_facts ho
  have hweak := hk.weak (Nat.le_trans hl (Nat.le_succ_of_le hsign))
  -- the right operand ends in front of what follows the whole
  have hright := h₂ op.kind.strength [] (firstKind vs k) right (Nat.lt_succ_self _) hsign
    ⟨.inr ⟨Nat.le_succ_of_le (Nat.le_trans hweak.1 hl), hweak.2⟩, hk.2⟩
    (.stop (Nat.le_trans hweak.1 hl))
  rw [List.append_nil] at hright
  -- the left one in front of the operator, which then goes on with it
  have hloop := Reads.infixed (Nat.lt_of_lt_of_le ha hl) hparen hright hr
  have hall := h₁ above (op :: (us ++ vs)) k n (Nat.lt_of_lt_of_le ha hl) ha'
    ⟨.inr ⟨Nat.le_refl _, hsign⟩, helse⟩ hloop
  rwa [List.append_assoc, List.cons_append]

theorem read_call {o c : Token} {span : Option Span} {callee : Node} {args : List Node}
    (ho : o.kind = .leftParen) (hc : c.kind = .rightParen)
    (h₁ : (Part.expression calleePrecedence callee).Read ts) (h₂ : (Part.arguments args).Read us) :
    (Part.expression least (.call span callee args)).Read (ts ++ o :: (us ++ [c])) := by
  intro above vs k n ha ha' hk hr
  have hs : above < o.kind.strength := by
    rw [ho]
    exact Nat.lt_succ_of_le ha'
  have hloop := Reads.call hs ho (h₂ c (firstKind vs k) hc) hr
  have hall := h₁ above (o :: (us ++ [c] ++ vs)) k n (Nat.lt_succ_of_le (Nat.le_succ_of_le ha')) ha'
    ⟨.inl (Nat.le_refl _), by rw [firstKind_cons, ho]; decide⟩ hloop
  rwa [List.append_assoc, List.cons_append]

/-- An expression as a statement, with or without a semicolon. -/
theorem read_statement {span : Option Span} (h : (Part.expression loosest e).Read ts)
    (hu : Terminator us k) (hk : firstKind us k = .semicolon ∨ firstKind us k = .endOfText) :
    Reads (.statement (.expression span e)) (ts ++ us) k := by
  have hends : (firstKind us k).strength ≤ lowest ∧ firstKind us k ≠ .elseWord ∧
      firstKind us k ≠ .assign := by
    rcases hk with hk | hk <;> · rw [hk]; decide
  have hr := h.closed hends.1 hends.2.1
  refine .expressionStatement hr hu fun hi => ?_
  obtain ⟨t, ts, rfl, -⟩ := hr.first trivial
  have hnext := hr.no_assign (Nat.le_refl _) hends.2.2 hi
  rwa [List.tail_cons, ← firstKind_append] at hnext

/-- **What is written carefully is read as it is written.** -/
theorem Writes.reads {part : Part} (h : Writes .careful part ts) (hl : Readable ts) :
    part.Read ts := by
  induction h with
  | identifier ht => exact read_operand fun _ _ => .identifier ht
  | integer ht =>
    simp only [readable_cons] at hl
    exact read_operand fun _ _ => .integer ht (hl.1 ht)
  | grouped ho _ hc ih =>
    simp only [readable_cons, readable_append] at hl
    exact read_operand fun _ _ => .grouped ho ((ih hl.2.1).closed (by decide) (by decide)) hc
  | signed hs ht _ ih =>
    simp only [readable_cons] at hl
    exact read_signed hs ht (ih hl.2)
  | infixed hs ho _ _ ih₁ ih₂ =>
    simp only [readable_cons, readable_append] at hl
    exact read_infixed hs ho (ih₁ hl.1) (ih₂ hl.2.2)
  | call _ ho _ hc ih₁ ih₂ =>
    simp only [readable_cons, readable_append] at hl
    exact read_call ho hc (ih₁ hl.1) (ih₂ hl.2.2.1)
  | function hf ho hps hc _ ih =>
    simp only [readable_cons, readable_append] at hl
    refine read_operand fun k _ => ?_
    rw [List.append_cons]
    exact .function hf ho (hps.parameters hc) (ih hl.2.2.2.2 k)
  | choice _ ih => exact read_operand fun k hk => .choice (ih hl k hk)
  | noArguments => exact fun c k hc => .noArguments hc
  | lastArgument _ ih =>
    intro c k hc
    have hr := (ih hl).closed (k := .rightParen) (by decide) (by decide)
    exact .arguments (by rwa [firstKind_cons, hc]) (.lastArgument hc)
  | nextArgument _ hcomma _ hne ih₁ ih₂ =>
    simp only [readable_cons, readable_append] at hl
    intro c k hc
    have hr := (ih₁ hl.1).closed (k := .comma) (by decide) (by decide)
    exact hr.arguments_cons hcomma hne (ih₂ hl.2.2 c k hc)
  | ifOnly hi ho _ hc _ ih₁ ih₂ =>
    simp only [readable_cons, readable_append] at hl
    have hr := (ih₁ hl.2.2.1).closed (k := .rightParen) (by decide) (by decide)
    exact fun k hk => .ifOnly hi ho hr hc (ih₂ hl.2.2.2.2 k) hk
  | ifElse hi ho _ hc _ he _ ih₁ ih₂ ih₃ =>
    simp only [readable_cons, readable_append] at hl
    have hr := (ih₁ hl.2.2.1).closed (k := .rightParen) (by decide) (by decide)
    exact fun k _ =>
      .ifElse hi ho hr hc (ih₂ hl.2.2.2.2.1 .elseWord) he (ih₃ hl.2.2.2.2.2.2 k)
  | elseIf hi ho _ hc _ he _ ih₁ ih₂ ih₃ =>
    simp only [readable_cons, readable_append] at hl
    have hr := (ih₁ hl.2.2.1).closed (k := .rightParen) (by decide) (by decide)
    exact fun k hk =>
      .elseIf hi ho hr hc (ih₂ hl.2.2.2.2.1 .elseWord) he (ih₃ hl.2.2.2.2.2.2 k hk)
  | block ho _ hc ih =>
    simp only [readable_cons, readable_append] at hl
    exact fun k => .block ho (ih hl.2.1 .rightBrace) hc
  | noStatements => exact fun k => .noStatements
  | statements _ _ ih₁ ih₂ =>
    rw [readable_append] at hl
    exact fun k => .statements (ih₁ hl.1 _) (ih₂ hl.2 k)
  | binding _ hs ih =>
    rw [readable_append] at hl
    cases hs with
    | semicolon ht => exact fun k => .binding (ih hl.1 _ (.inl ht)) (.semicolon ht)
  | expressionStatement _ hs ih =>
    rw [readable_append] at hl
    cases hs with
    | semicolon ht => exact fun k => read_statement (ih hl.1) (.semicolon ht) (by simp [ht])
  | whileLoop hw ho _ hc _ ih₁ ih₂ =>
    simp only [readable_cons, readable_append] at hl
    have hr := (ih₁ hl.2.2.1).closed (k := .rightParen) (by decide) (by decide)
    exact fun k => .whileLoop hw ho hr hc (ih₂ hl.2.2.2.2 k)
  | forLoop hf ho _ h₁ _ h₂ _ hc _ ih₁ ih₂ ih₃ ih₄ =>
    simp only [readable_cons, readable_append] at hl
    have hr := (ih₂ hl.2.2.2.2.1).closed (k := .semicolon) (by decide) (by decide)
    exact fun k => .forLoop hf ho (ih₁ hl.2.2.1 _ (.inl rfl)) h₁ hr h₂
      (ih₃ hl.2.2.2.2.2.2.1 _ (.inr rfl)) hc (ih₄ hl.2.2.2.2.2.2.2.2 k)
  | declaration hw ht ha _ ih =>
    simp only [readable_cons] at hl
    rintro k (rfl | rfl)
    · exact .declaration hw ht ha ((ih hl.2.2.2).closed (by decide) (by decide))
    · exact .declaration hw ht ha ((ih hl.2.2.2).closed (by decide) (by decide))
  | assignment ht ha _ ih =>
    simp only [readable_cons] at hl
    rintro k (rfl | rfl)
    · exact .assignment ht ha ((ih hl.2.2).closed (by decide) (by decide))
    · exact .assignment ht ha ((ih hl.2.2).closed (by decide) (by decide))

/-- **A source that consists of a carefully written expression is parsed to it.** -/
theorem Source.parse_writes (s : Source) (limits : Limits) (e : Node) (ts us : List Token)
    (hp : 1 ≤ limits.problems) (hd : limits.depth ≤ maxDepthLimit) (hl : Readable s.tokens)
    (he : Writes .careful (.expression loosest e) ts) (hu : Style.free.Ends us)
    (hs : s.programTokens = ts ++ us) :
    ∃ p, s.parse limits = .ok p ∧
      ((∀ place, p.ending ≠ .tooDeep place) ∨ 4 * s.tokens.length ≤ limits.depth →
        p.problems = #[] ∧ p.program.statements.map Node.erase = [.expression none e.erase]) := by
  obtain ⟨p, hparse⟩ := s.parse_ok hd hl
  refine ⟨p, hparse, fun hdeep => ?_⟩
  have hreadable : Readable (ts ++ us) :=
    hs ▸ fun t ht => hl t (List.dropLast_subset s.tokens ht)
  have hterminator : Terminator us .endOfText ∧
      (firstKind us .endOfText = .semicolon ∨ firstKind us .endOfText = .endOfText) := by
    cases hu with
    | semicolon ht => exact ⟨.semicolon ht, .inl ht⟩
    | omitted => exact ⟨.omitted (by decide), .inr rfl⟩
  have hr : Reads (.statement (.expression none e)) (ts ++ us) .endOfText :=
    read_statement (he.reads (readable_append.1 hreadable).1) hterminator.1 hterminator.2
  have hall : Reads (.statements [.expression none e]) s.programTokens .endOfText := by
    rw [hs, ← List.append_nil (ts ++ us)]
    exact .statements hr .noStatements
  exact parse_of_reads hp hparse hdeep.symm hall

/-- A token on the first line of a text without a name. -/
def tokenAt (kind : Kind) (text : String) (offset : Nat) : Token :=
  let stop := offset + text.length
  { kind, text, span := ⟨⟨1, offset + 1, offset, none⟩, ⟨1, stop + 1, stop, none⟩⟩ }

/-- Signs and factors before terms, and subtraction from the left. -/
theorem parse_writes_difference :
    ∃ p, ({ text := "-a * ((b)) - (c - 07)" } : Source).parse = .ok p ∧ p.problems = #[] ∧
      p.program.statements.map Node.erase =
        [.expression none
          (.binary none
            (.binary none (.unary none "-" (.identifier none "a")) "*" (.identifier none "b"))
            "-" (.binary none (.identifier none "c") "-" (.integer none 7)))] := by
  have htokens : ({ text := "-a * ((b)) - (c - 07)" } : Source).programTokens =
      ([tokenAt .minus "-" 0, tokenAt .identifier "a" 1] ++ tokenAt .star "*" 3 ::
        [tokenAt .leftParen "(" 5, tokenAt .leftParen "(" 6, tokenAt .identifier "b" 7,
          tokenAt .rightParen ")" 8, tokenAt .rightParen ")" 9]) ++ tokenAt .minus "-" 11 ::
        (tokenAt .leftParen "(" 13 :: ([tokenAt .identifier "c" 14] ++ tokenAt .minus "-" 16 ::
          [tokenAt .integer "07" 18]) ++ [tokenAt .rightParen ")" 20]) ++ [] := by
    decide +kernel
  have ha : Writes .careful (.expression 5 (.identifier none "a")) [tokenAt .identifier "a" 1] :=
    @Writes.identifier .careful (tokenAt .identifier "a" 1) 5 none rfl
  have hb : Writes .careful (.expression 2 (.identifier none "b")) [tokenAt .identifier "b" 7] :=
    @Writes.identifier .careful (tokenAt .identifier "b" 7) 2 none rfl
  have hc : Writes .careful (.expression 3 (.identifier none "c")) [tokenAt .identifier "c" 14] :=
    @Writes.identifier .careful (tokenAt .identifier "c" 14) 3 none rfl
  have hseven : Writes .careful (.expression 4 (.integer none 7)) [tokenAt .integer "07" 18] :=
    @Writes.integer .careful (tokenAt .integer "07" 18) 4 none rfl
  have hsigned := @Writes.signed .careful (tokenAt .minus "-" 0) _ 4 none _ (by decide) (.inr rfl)
    ha
  have hgrouped := @Writes.grouped .careful (tokenAt .leftParen "(" 5) (tokenAt .rightParen ")" 9)
    _ 5 _ rfl (.grouped (o := tokenAt .leftParen "(" 6) (c := tokenAt .rightParen ")" 8) rfl hb rfl)
    rfl
  have hproduct := @Writes.infixed .careful (tokenAt .star "*" 3) _ _ 3 none _ _ (by decide) rfl
    hsigned hgrouped
  have hdifference := @Writes.infixed .careful (tokenAt .minus "-" 16) _ _ 2 none _ _ (by decide)
    rfl hc hseven
  have hright := @Writes.grouped .careful (tokenAt .leftParen "(" 13) (tokenAt .rightParen ")" 20)
    _ 4 _ rfl hdifference rfl
  have hall := @Writes.infixed .careful (tokenAt .minus "-" 11) _ _ 2 none _ _ (by decide) rfl
    hproduct hright
  obtain ⟨p, hparse, hp⟩ := Source.parse_writes { text := "-a * ((b)) - (c - 07)" } {} _ _ []
    (by decide) (by decide) (by decide +kernel) hall .omitted htokens
  have hdeep :
      (4 * ({ text := "-a * ((b)) - (c - 07)" } : Source).tokens.length : Int) ≤ 10000 := by
    decide +kernel
  exact ⟨p, hparse, hp (.inr hdeep)⟩

end Ember

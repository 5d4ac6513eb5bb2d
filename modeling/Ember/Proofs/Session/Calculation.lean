import Ember.Proofs.Eval.Arithmetic
import Ember.Proofs.Grammar.Rendering
import Ember.Proofs.Session.Ends
import Ember.Proofs.Token.Pieces

/-!
# Calculations

A source that consists of arithmetic is evaluated to its exact value, or fails at its first
division by zero (`Heap.evaluate_renders`). This goes from the characters of the text, with
any blanks and any more parentheses than needed, to the value.
-/

namespace Ember

open Text

/-- The text writes the tree, with parentheses at least where operators of a precedence
below `least` need them, and with any blanks between the tokens. -/
inductive Renders : Nat → Node → List Char → Prop
  | literal {least : Nat} {span : Option Span} {digits : List Char} :
      digits ≠ [] → (∀ c ∈ digits, isDigit c = true) → digits.length ≤ maxDigits →
      Renders least (.integer span (digitsValue digits)) digits
  | blankBefore {least : Nat} {e : Node} {c : Char} {cs : List Char} :
      isBlank c = true → Renders least e cs → Renders least e (c :: cs)
  | blankAfter {least : Nat} {e : Node} {c : Char} {cs : List Char} :
      Renders least e cs → isBlank c = true → Renders least e (cs ++ [c])
  | grouped {least : Nat} {e : Node} {cs : List Char} :
      Renders loosest e cs → Renders least e ('(' :: (cs ++ [')']))
  | negative {least : Nat} {span : Option Span} {e : Node} {cs : List Char} :
      least ≤ signPrecedence → Renders signPrecedence e cs →
      Renders least (.unary span "-" e) ('-' :: cs)
  | operation {least : Nat} {span : Option Span} {left right : Node} {c : Char}
      {cs ds : List Char} :
      c ∈ ['+', '-', '*', '/'] → least ≤ (singleKind c).strength →
      Renders (singleKind c).strength left cs → Renders ((singleKind c).strength + 1) right ds →
      Renders least (.binary span left (String.ofList [c]) right) (cs ++ c :: ds)

/-- What the tokens of a rendered tree are. -/
structure Calculation (least : Nat) (e : Node) (ts : List Token) : Prop where
  writes : Writes .careful (.expression least e) ts
  readable : Readable ts
  arithmetic : Arithmetic ts.length e

/-- What is known of the basic operators. -/
structure IsBasic (c : Char) : Prop where
  mark : IsMark c
  single : extensibleKinds c = none
  infixed : (singleKind c).isInfix = true
  notInteger : singleKind c ≠ .integer
  mem : String.ofList [c] ∈ ["+", "-", "*", "/"]

theorem isBasic_of_mem {c : Char} (hc : c ∈ ['+', '-', '*', '/']) : IsBasic c := by
  simp only [List.mem_cons, List.not_mem_nil, or_false] at hc
  rcases hc with rfl | rfl | rfl | rfl <;>
    exact ⟨⟨by decide, by decide, by decide⟩, rfl, rfl, by decide, by decide⟩

/-- **The text of arithmetic is lexed to tokens that write the tree.** -/
theorem Renders.spells {least : Nat} {e : Node} {cs : List Char} (h : Renders least e cs) :
    Spells isDigit cs (Calculation least e) := by
  induction h with
  | @literal least span digits hne hdigits hlen =>
    refine (Spells.digits hne hdigits fun _ hc => hc).mono ?_
    rintro ts ⟨t, rfl, ht⟩
    obtain ⟨hkind, htext⟩ := Prod.mk.inj ht
    have hlist : t.text.toList = digits := by rw [htext, String.toList_ofList]
    refine ⟨hlist ▸ .integer hkind, fun u hu _ => ?_, .literal⟩
    rw [List.mem_singleton.1 hu, ← String.length_toList, hlist]
    exact hlen
  | blankBefore hc _ ih => exact ih.blank hc
  | blankAfter _ hc ih =>
    refine ih.append_blank hc ?_
    cases hd : isDigit _ with
    | false => rfl
    | true => rw [isDigit_not_blank hd] at hc; cases hc
  | grouped _ ih =>
    have hmark : IsMark ')' := ⟨by decide, by decide, by decide⟩
    have hclose := Spells.single (p := isDigit) hmark rfl .nil
    refine (Spells.single ⟨by decide, by decide, by decide⟩ rfl
      (ih.append hclose fun c hc => by cases hc; decide)).mono ?_
    rintro _ ⟨o, _, rfl, ho, ts, _, rfl, h, c, _, rfl, hc, rfl⟩
    have hok : o.kind = .leftParen := (Prod.mk.inj ho).1
    have hck : c.kind = .rightParen := (Prod.mk.inj hc).1
    have hlen : ts.length ≤ (o :: (ts ++ [c])).length := by
      simp only [List.length_cons, List.length_append]
      omega
    refine ⟨.grouped hok h.writes hck, ?_, h.arithmetic.mono hlen⟩
    rw [readable_cons, readable_append, readable_cons, hok, hck]
    exact ⟨nofun, h.readable, nofun, nofun⟩
  | @negative least span e cs hl _ ih =>
    refine (Spells.single ⟨by decide, by decide, by decide⟩ rfl ih).mono ?_
    rintro _ ⟨t, ts, rfl, ht, h⟩
    obtain ⟨htk, htext⟩ : t.kind = .minus ∧ t.text = "-" := Prod.mk.inj ht
    have hwrites : Writes .careful (.expression least (.unary span t.text e)) (t :: ts) :=
      .signed hl (.inr htk) h.writes
    rw [htext] at hwrites
    refine ⟨hwrites, ?_, .negative h.arithmetic⟩
    rw [readable_cons, htk]
    exact ⟨nofun, h.readable⟩
  | @operation least span left right c cs ds hc hl _ _ ih₁ ih₂ =>
    have hb := isBasic_of_mem hc
    refine (ih₁.append (Spells.single hb.mark hb.single ih₂)
      fun d hd => by cases hd; exact hb.mark.digit).mono ?_
    rintro _ ⟨ts, _, rfl, h₁, op, us, rfl, ho, h₂⟩
    obtain ⟨hok, htext⟩ : op.kind = singleKind c ∧ op.text = String.ofList [c] := Prod.mk.inj ho
    have hwrites : Writes .careful (.expression least (.binary span left op.text right))
        (ts ++ op :: us) :=
      .infixed (hok ▸ hl) (hok ▸ hb.infixed) (hok ▸ h₁.writes) (hok ▸ h₂.writes)
    rw [htext] at hwrites
    have hlen : (ts ++ op :: us).length = (ts.length + us.length) + 1 := by
      rw [List.length_append, List.length_cons, Nat.add_assoc]
    refine ⟨hwrites, ?_, ?_⟩
    · rw [readable_append, readable_cons, hok]
      exact ⟨h₁.readable, fun hi => absurd hi hb.notInteger, h₂.readable⟩
    · rw [hlen]
      exact .operation hb.mem (h₁.arithmetic.mono (Nat.le_add_right ..))
        (h₂.arithmetic.mono (Nat.le_add_left ..))

/-! ## Evaluating the program -/

/-- A program of one expression has its value. -/
theorem evalNode_expression (rounds depth : Nat) (span span' : Option Span) (n : Node) (f : FrameId)
    (h : Heap) :
    evalNode rounds (depth + 2) (.program span [.expression span' n]) f h =
      evalTask rounds depth (.expression n) f h := by
  change ((evalTask rounds depth (.expression n) f >>= fun value => pure value) : Run _) h = _
  rw [Run.bind_apply]
  cases evalTask rounds depth (.expression n) f h <;> rfl

/-- The outcome of a calculation: the exact value, or the first division by zero. -/
inductive Outcome.Calculated (n : Node) : Outcome → Prop
  | value {v : Int} : Denotes n v → Calculated n (.finished (some (.integer v)))
  | zero {zero : Option Span} {d : Diagnostic} : FirstZero n zero → d.code = "E403" →
      d.span = zero → Calculated n (.failed .divisionByZero d)

theorem Outcome.Calculated.quoting {n : Node} {o : Outcome} (h : o.Calculated n) (s : Source) :
    (o.quoting s).Calculated n := by
  cases h with
  | value hv => exact .value hv
  | zero hz hc hs => exact .zero hz hc hs

theorem Heap.run_calculation {n : Node} {levels : Nat} (hn : Arithmetic levels n) (h : Heap)
    (f : FrameId) {p : Program} {span : Option Span} (hp : p.statements = [.expression span n])
    {limit : Int} (hd : limit ≤ maxDepthLimit) (rounds : Nat) :
    ∃ o, h.run f p limit rounds = (.ok o, h) ∧
      (o.Calculated n ∨ (∃ d, o = .failed .tooDeep d) ∧ limit < 2 * levels + 2) := by
  obtain ⟨depth, hdepth⟩ : ∃ depth, (max 1000 limit).toNat = depth + 2 :=
    ⟨(max 1000 limit).toNat - 2, by omega⟩
  have hnode : evalNode rounds (max 1000 limit).toNat p.toNode f h =
      evalTask rounds depth (.expression n) f h := by
    rw [Program.toNode, hp, hdepth, evalNode_expression]
  have hsettles := hn.eval rounds depth f h
  unfold run
  rw [depthBudget_eq, if_neg (Int.not_lt.2 hd)]
  simp only [hnode]
  generalize evalTask rounds depth (.expression n) f h = r at hsettles
  cases hsettles with
  | value hv => exact ⟨_, rfl, .inl (.value hv)⟩
  | zero hz => exact ⟨_, rfl, .inl (.zero hz rfl rfl)⟩
  | tooDeep hlt => exact ⟨_, rfl, .inr ⟨⟨_, rfl⟩, by omega⟩⟩

/-! ## Sources -/

/-- The one statement of a program that is an expression up to spans. -/
theorem statements_of_erase {ns : List Node} {e : Node}
    (h : ns.map Node.erase = [.expression none e.erase]) :
    ∃ span n, ns = [.expression span n] ∧ n.erase = e.erase := by
  obtain ⟨m, rest, rfl, hm, hrest⟩ := List.map_eq_cons_iff.1 h
  obtain rfl := List.map_eq_nil_iff.1 hrest
  cases m <;> simp only [Node.erase, reduceCtorEq, Node.expression.injEq, true_and] at hm
  exact ⟨_, _, rfl, hm⟩

/-- A source that renders a tree is read as it. -/
theorem Renders.reads {e : Node} {s : Source} (h : Renders loosest e s.text.toList) :
    Calculation loosest e s.programTokens ∧
      Reads (.statements [.expression none e]) s.programTokens .endOfText := by
  have hc : Calculation loosest e s.programTokens := Source.programTokens_spelled h.spells
  have hstatement : Reads (.statement (.expression none e)) (s.programTokens ++ []) .endOfText :=
    read_statement (hc.writes.reads hc.readable) (.omitted (by decide)) (.inr rfl)
  have hall : Reads (.statements [.expression none e]) (s.programTokens ++ [] ++ []) .endOfText :=
    .statements hstatement .noStatements
  rw [List.append_nil, List.append_nil] at hall
  exact ⟨hc, hall⟩

/-- **Arithmetic is calculated exactly, from the text to the value.** -/
theorem Heap.evaluate_renders (h : Heap) (f : FrameId) (s : Source) (limits : Limits) (rounds : Nat)
    (e : Node) (hp : 1 ≤ limits.problems) (hd : limits.depth ≤ maxDepthLimit)
    (he : Renders loosest e s.text.toList) :
    ∃ p o, s.parse limits = .ok p ∧ h.evaluate f s limits rounds = (.ok ⟨p, .ok o⟩, h) ∧
      (4 * s.tokens.length ≤ limits.depth ∨
          (∀ place, p.ending ≠ .tooDeep place) ∧ (∀ d, o ≠ .failed .tooDeep d) →
        ∃ span n, p.problems = #[] ∧ p.program.statements = [.expression span n] ∧
          n.erase = e.erase ∧
          ((∃ v, Denotes e v ∧ o = .finished (some (.integer v))) ∨
            (∀ v, ¬ Denotes e v) ∧ ∃ zero d, FirstZero n zero ∧
              o = .failed .divisionByZero d ∧ d.code = "E403" ∧ d.span = zero)) := by
  obtain ⟨hc, hr⟩ := he.reads
  obtain ⟨last, htokens, hlast, -⟩ := s.tokens_eq
  have hreadable : Readable s.tokens := by
    rw [htokens, readable_append, readable_cons, hlast]
    exact ⟨hc.readable, nofun, nofun⟩
  have hlen : s.tokens.length = s.programTokens.length + 1 := by
    rw [htokens, List.length_append, List.length_singleton]
  obtain ⟨p, hparse⟩ := s.parse_ok hd hreadable
  by_cases hproblems : p.problems = #[]
  · have hending : ∀ place, p.ending ≠ .tooDeep place := by
      rw [(Source.parse_reads hp hparse hproblems).1]
      exact nofun
    obtain ⟨-, hstatements⟩ := Source.parse_of_reads hp hparse (.inr hending) hr
    obtain ⟨span, n, hn, hne⟩ := statements_of_erase hstatements
    obtain ⟨o, hrun, ho⟩ := h.run_calculation (hc.arithmetic.of_erase hne.symm) f hn hd rounds
    refine ⟨p, o.quoting s, hparse, ?_, fun hdeep => ⟨span, n, hproblems, hn, hne, ?_⟩⟩
    · rw [evaluate_of_no_problems h f rounds hparse hproblems, hrun]
      rfl
    · have hcalculated : (o.quoting s).Calculated n := by
        rcases ho with ho | ⟨⟨d, rfl⟩, hlt⟩
        · exact ho.quoting s
        · rcases hdeep with hdeep | ⟨-, hdeep⟩
          · omega
          · exact absurd rfl (hdeep _)
      generalize o.quoting s = o' at hcalculated
      cases hcalculated with
      | value hv => exact .inl ⟨_, hv.of_erase hne, rfl⟩
      | zero hz hcode hspan =>
        refine .inr ⟨fun v hv => ?_, _, _, hz, rfl, hcode, hspan⟩
        exact hz.not_denotes (hv.of_erase hne.symm)
  · refine ⟨p, .rejected (p.diagnostics s), hparse, ?_, fun hdeep => ?_⟩
    · exact evaluate_of_problems h f rounds hparse hproblems
    · exact absurd (Source.parse_of_reads hp hparse (hdeep.imp_right And.left) hr).1 hproblems

/-- Blanks and parentheses, a sign, and a quotient that is not exact. -/
theorem Heap.evaluate_renders_quotient :
    ∃ p, Heap.initial.evaluate globalFrame { text := "-7 /(3 -\t01) " } =
      (.ok ⟨p, .ok (.finished (some (.integer (-3))))⟩, Heap.initial) := by
  have hliteral : ∀ ds : List Char, ds ≠ [] ∧ ds.all isDigit = true ∧ ds.length ≤ maxDigits →
      ∀ least, Renders least (.integer none (digitsValue ds)) ds :=
    fun ds h least => .literal h.1 (List.all_eq_true.1 h.2.1) h.2.2
  have hseven : Renders 4 (.unary none "-" (.integer none 7)) (['-', '7'] ++ [' ']) :=
    .blankAfter (.negative (by decide) (hliteral ['7'] (by decide) _)) (by decide)
  have hthree : Renders 3 (.integer none 3) (['3'] ++ [' ']) :=
    .blankAfter (hliteral ['3'] (by decide) _) (by decide)
  have hone : Renders 4 (.integer none 1) ['\t', '0', '1'] :=
    .blankBefore (by decide) (hliteral ['0', '1'] (by decide) _)
  have hdifference : Renders loosest (.binary none (.integer none 3) "-" (.integer none 1))
      (['3', ' '] ++ '-' :: ['\t', '0', '1']) :=
    .operation (c := '-') (by decide) (by decide) hthree hone
  have hgrouped : Renders 5 (.binary none (.integer none 3) "-" (.integer none 1))
      ('(' :: ['3', ' ', '-', '\t', '0', '1'] ++ [')'] ++ [' ']) :=
    .blankAfter (.grouped hdifference) (by decide)
  have hall : Renders loosest
      (.binary none (.unary none "-" (.integer none 7)) "/"
        (.binary none (.integer none 3) "-" (.integer none 1)))
      "-7 /(3 -\t01) ".toList :=
    .operation (c := '/') (by decide) (by decide) hseven hgrouped
  have hvalue : Denotes (.binary none (.unary none "-" (.integer none 7)) "/"
      (.binary none (.integer none 3) "-" (.integer none 1))) (-3) :=
    .operation (.negative .literal) (.operation .literal .literal rfl)
      ⟨-1, by decide, by decide, .inr (by decide)⟩
  obtain ⟨p, o, -, hrun, ho⟩ := Heap.initial.evaluate_renders globalFrame
    { text := "-7 /(3 -\t01) " } {} loopBound _ (by decide) (by decide) hall
  obtain ⟨-, -, -, -, -, ⟨v, hv, rfl⟩ | ⟨hv, -⟩⟩ := ho (.inl (by decide +kernel))
  · exact ⟨p, hv.unique hvalue ▸ hrun⟩
  · exact absurd hvalue (hv _)

end Ember

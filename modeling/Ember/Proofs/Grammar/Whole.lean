import Ember.Proofs.Grammar.Derivation
import Ember.Proofs.Grammar.Program

/-!
# Whole trees

A tree is whole when nothing is missing in it, every part stands where it belongs, and
every operator is one of the language. A parse without problems gives whole trees
(`Source.parse_whole`).
-/

namespace Ember

/-- The place of a node in a tree. -/
inductive Role where
  | expression
  | statement
  /-- The first or last clause of a loop, or a statement of the same form. -/
  | clause
  | block
deriving DecidableEq, Repr

/-- The operators in front of an operand. -/
def prefixOperators : List String := ["!", "-"]

/-- The operators between two operands. -/
def infixOperators : List String := ["+", "-", "*", "/", "<", ">", "<=", ">=", "==", "!="]

/-- The node and all below it are what their places ask for. -/
inductive Whole : Role → Node → Prop
  | identifier {span : Option Span} {name : String} : Whole .expression (.identifier span name)
  | integer {span : Option Span} {value : Int} : Whole .expression (.integer span value)
  | unary {span : Option Span} {operator : String} {operand : Node} :
      operator ∈ prefixOperators → Whole .expression operand →
      Whole .expression (.unary span operator operand)
  | binary {span : Option Span} {operator : String} {left right : Node} :
      operator ∈ infixOperators → Whole .expression left → Whole .expression right →
      Whole .expression (.binary span left operator right)
  | ifOnly {span : Option Span} {condition consequence : Node} :
      Whole .expression condition → Whole .block consequence →
      Whole .expression (.conditional span condition consequence .missing)
  | ifElse {span : Option Span} {condition consequence alternative : Node} :
      Whole .expression condition → Whole .block consequence → Whole .block alternative →
      Whole .expression (.conditional span condition consequence alternative)
  | function {span : Option Span} {parameters : List Name} {body : Node} :
      Whole .block body → Whole .expression (.function span parameters body)
  | call {span : Option Span} {callee : Node} {args : List Node} :
      Whole .expression callee → (∀ a ∈ args, Whole .expression a) →
      Whole .expression (.call span callee args)
  | block {span : Option Span} {ns : List Node} :
      (∀ n ∈ ns, Whole .statement n) → Whole .block (.block span ns)
  | declaration {span : Option Span} {name : Name} {value : Node} :
      Whole .expression value → Whole .clause (.declaration span name value)
  | assignment {span : Option Span} {name : Name} {value : Node} :
      Whole .expression value → Whole .clause (.assignment span name value)
  | clause {n : Node} : Whole .clause n → Whole .statement n
  | expressionStatement {span : Option Span} {e : Node} :
      Whole .expression e → Whole .statement (.expression span e)
  | whileLoop {span : Option Span} {condition body : Node} :
      Whole .expression condition → Whole .block body →
      Whole .statement (.whileLoop span condition body)
  | forLoop {span : Option Span} {init condition post body : Node} :
      Whole .clause init → Whole .expression condition → Whole .clause post → Whole .block body →
      Whole .statement (.forLoop span init condition post body)

/-- The tree of a part is whole. -/
def Part.Whole : Part → Prop
  | .statements ns => ∀ n ∈ ns, Ember.Whole .statement n
  | .statement n => Ember.Whole .statement n
  | .clause n => Ember.Whole .clause n
  | .block n => Ember.Whole .block n
  | .expression _ e | .conditional e => Ember.Whole .expression e
  | .arguments es => ∀ e ∈ es, Ember.Whole .expression e

/-- Tokens of a kind with only one spelling are spelled so. -/
def Spelled (ts : List Token) : Prop :=
  ∀ t ∈ ts, ∀ text, t.kind.spelling? = some text → t.text = text

@[simp]
theorem spelled_append {ts us : List Token} : Spelled (ts ++ us) ↔ Spelled ts ∧ Spelled us := by
  simp [Spelled, or_imp, forall_and]

@[simp]
theorem spelled_cons {t : Token} {ts : List Token} :
    Spelled (t :: ts) ↔ (∀ text, t.kind.spelling? = some text → t.text = text) ∧ Spelled ts := by
  simp [Spelled]

theorem Kind.infix_spelling {k : Kind} (h : k.isInfix) :
    ∃ text ∈ infixOperators, k.spelling? = some text := by
  unfold infixOperators
  revert h
  cases k <;> decide

theorem Kind.prefix_spelling {k : Kind} (h : k = .bang ∨ k = .minus) :
    ∃ text ∈ prefixOperators, k.spelling? = some text := by
  unfold prefixOperators
  rcases h with rfl | rfl <;> decide

/-- **What is written is whole.** -/
theorem Writes.whole {style : Style} {part : Part} {ts : List Token} (h : Writes style part ts)
    (hs : Spelled ts) : part.Whole := by
  induction h with
  | identifier => exact .identifier
  | integer => exact .integer
  | grouped _ _ _ ih =>
    simp only [spelled_cons, spelled_append] at hs
    exact ih hs.2.1
  | signed _ ht _ ih =>
    simp only [spelled_cons] at hs
    obtain ⟨text, hmem, htext⟩ := Kind.prefix_spelling ht
    exact .unary (hs.1 text htext ▸ hmem) (ih hs.2)
  | infixed _ ho _ _ ih₁ ih₂ =>
    simp only [spelled_cons, spelled_append] at hs
    obtain ⟨text, hmem, htext⟩ := Kind.infix_spelling ho
    exact .binary (hs.2.1 text htext ▸ hmem) (ih₁ hs.1) (ih₂ hs.2.2)
  | call _ _ _ _ ih₁ ih₂ =>
    simp only [spelled_cons, spelled_append] at hs
    exact .call (ih₁ hs.1) (ih₂ hs.2.2.1)
  | function _ _ _ _ _ ih =>
    simp only [spelled_cons, spelled_append] at hs
    exact .function (ih hs.2.2.2.2)
  | choice _ ih => exact ih hs
  | noArguments => exact fun e he => by cases he
  | lastArgument _ ih => exact List.forall_mem_singleton.2 (ih hs)
  | nextArgument _ _ _ _ ih₁ ih₂ =>
    simp only [spelled_cons, spelled_append] at hs
    exact List.forall_mem_cons.2 ⟨ih₁ hs.1, ih₂ hs.2.2⟩
  | ifOnly _ _ _ _ _ ih₁ ih₂ =>
    simp only [spelled_cons, spelled_append] at hs
    exact .ifOnly (ih₁ hs.2.2.1) (ih₂ hs.2.2.2.2)
  | ifElse _ _ _ _ _ _ _ ih₁ ih₂ ih₃ =>
    simp only [spelled_cons, spelled_append] at hs
    exact .ifElse (ih₁ hs.2.2.1) (ih₂ hs.2.2.2.2.1) (ih₃ hs.2.2.2.2.2.2)
  | elseIf _ _ _ _ _ _ _ ih₁ ih₂ ih₃ =>
    simp only [spelled_cons, spelled_append] at hs
    refine .ifElse (ih₁ hs.2.2.1) (ih₂ hs.2.2.2.2.1) (.block ?_)
    exact List.forall_mem_singleton.2 (.expressionStatement (ih₃ hs.2.2.2.2.2.2))
  | block _ _ _ ih =>
    simp only [spelled_cons, spelled_append] at hs
    exact .block (ih hs.2.1)
  | noStatements => exact fun n hn => by cases hn
  | statements _ _ ih₁ ih₂ =>
    rw [spelled_append] at hs
    exact List.forall_mem_cons.2 ⟨ih₁ hs.1, ih₂ hs.2⟩
  | binding _ _ ih =>
    rw [spelled_append] at hs
    exact .clause (ih hs.1)
  | expressionStatement _ _ ih =>
    rw [spelled_append] at hs
    exact .expressionStatement (ih hs.1)
  | whileLoop _ _ _ _ _ ih₁ ih₂ =>
    simp only [spelled_cons, spelled_append] at hs
    exact .whileLoop (ih₁ hs.2.2.1) (ih₂ hs.2.2.2.2)
  | forLoop _ _ _ _ _ _ _ _ _ ih₁ ih₂ ih₃ ih₄ =>
    simp only [spelled_cons, spelled_append] at hs
    exact .forLoop (ih₁ hs.2.2.1) (ih₂ hs.2.2.2.2.1) (ih₃ hs.2.2.2.2.2.2.1)
      (ih₄ hs.2.2.2.2.2.2.2.2)
  | declaration _ _ _ _ ih =>
    simp only [spelled_cons] at hs
    exact .declaration (ih hs.2.2.2)
  | assignment _ _ _ ih =>
    simp only [spelled_cons] at hs
    exact .assignment (ih hs.2.2)

/-- **A parse without problems gives whole statements.** -/
theorem Source.parse_whole {s : Source} {limits : Limits} {p : Parsed} (hl : 1 ≤ limits.problems)
    (h : s.parse limits = .ok p) (hp : p.problems = #[]) :
    ∀ n ∈ p.program.statements, Whole .statement n := by
  have hspelled : Spelled s.programTokens := fun t ht _ htext =>
    tokens_spelling (List.dropLast_subset s.tokens ht) htext
  obtain ⟨-, hr⟩ := parse_reads hl h hp
  have hwrites : Writes .free (.statements p.program.statements) s.programTokens :=
    hr.writes trivial
  exact hwrites.whole hspelled

end Ember

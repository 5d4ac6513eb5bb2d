import Ember.Proofs.Eval.Invariant
import Ember.Proofs.Eval.Operators
import Ember.Proofs.Node.Placed

/-!
# What a failure is blamed on

A failure of an evaluation carries the span of a node: one of the tree that is evaluated, or one
of the body of a function that the tree or the heap holds. So where all these spans have a
property, the span of the failure has it, and the spans that are left behind have it too
(`evalTask_blames`, `program_blames`).
-/

namespace Ember

variable {P : Span → Prop}

/-- All spans in the body of a function have the property; other values have no spans. -/
def Value.Placed (P : Span → Prop) : Value → Prop
  | .function c => c.body.Placed P
  | .integer _ | .boolean _ => True

/-- All spans of what is to be evaluated have the property. -/
def Task.Placed (P : Span → Prop) : Task → Prop
  | .expression n | .statement n | .body n => n.Placed P

/-- The span of a failure has the property. -/
def EvalStop.Placed (P : Span → Prop) : EvalStop → Prop
  | .failed _ span => SpanPlaced P span
  | .tooDeep | .fault _ => True

theorem Value.Placed.mono {Q : Span → Prop} {v : Value} (h : v.Placed P)
    (hPQ : ∀ span, P span → Q span) : v.Placed Q := by
  cases v with
  | function c => exact Node.Placed.mono h hPQ
  | _ => trivial

theorem Value.Plain.placed {v : Value} (hv : v.Plain) : v.Placed P := by
  cases v with
  | function c => cases hv
  | _ => trivial

namespace Run

variable {α : Type}

/-- From a heap whose spans have the property the evaluation comes to such a heap, and a failure
is at such a span. -/
abbrev Blames (P : Span → Prop) (x : Run α) (Q : α → Prop) : Prop :=
  Preserves (Value.Placed P) (EvalStop.Placed P) x Q

/-- Evaluations that come to a value whose spans have the property, or to none. -/
abbrev ValueBlames (P : Span → Prop) (x : Run (Option Value)) : Prop :=
  Blames P x (ResultHolds (Value.Placed P))

section

variable {self : Task → FrameId → Run (Option Value)} {f : FrameId}
  (hself : ∀ task f, task.Placed P → ValueBlames P (self task f))

include hself

theorem blames_block {n : Node} (hn : n.Placed P) : ValueBlames P (block self f n) := by
  unfold block
  cases n with
  | block s ns => exact .statements hself resultHolds_none (Node.placed_block.1 hn).2
  | program s ns => exact .statements hself resultHolds_none (Node.placed_program.1 hn).2
  | _ => exact .throw trivial

theorem blames_expression {n : Node} (hn : n.Placed P) : ValueBlames P (expression self f n) := by
  cases n with
  | integer s value => exact .pure (resultHolds_some trivial)
  | identifier s name => exact .get (Node.placed_identifier.1 hn)
  | unary s operator a =>
    obtain ⟨hs, ha⟩ := Node.placed_unary.1 hn
    rw [expression]
    refine (hself (.expression a) f ha).bind fun v _ => ?_
    exact .ofOperation (fun _ h => (unaryOperation_plain h).placed) fun _ _ => hs
  | binary s a operator b =>
    obtain ⟨hs, ha, hb⟩ := Node.placed_binary.1 hn
    rw [expression]
    refine (hself (.expression a) f ha).bind fun v _ => ?_
    refine (hself (.expression b) f hb).bind fun w _ => ?_
    exact .ofOperation (fun _ h => (binaryOperation_plain h).placed) fun _ _ => hs
  | conditional s c a b =>
    obtain ⟨-, hc, ha, hb⟩ := Node.placed_conditional.1 hn
    rw [expression]
    refine (hself (.expression c) f hc).bind fun v _ => ?_
    split
    · exact blames_block hself ha
    split
    · exact .pure resultHolds_none
    · exact blames_block hself hb
  | function s xs b =>
    have hb := (Node.placed_function.1 hn).2.2
    exact fun h hh => ⟨resultHolds_some hb, hh⟩
  | call s callee args =>
    obtain ⟨hs, hcallee, hargs⟩ := Node.placed_call.1 hn
    rw [expression]
    refine (hself (.expression callee) f hcallee).bind fun function hf => ?_
    refine (Preserves.arguments hself (by simp) hargs).bind fun values hv => ?_
    have hvalues : ∀ v ∈ values.toList, ResultHolds (Value.Placed P) v := fun v hmem =>
      hv v (Array.mem_toList_iff.1 hmem)
    exact .apply hself (fun _ hbody => hbody) hf hvalues (fun _ _ => hs) fun _ => hs
  | _ => exact .throw trivial

theorem blames_statement {rounds : Nat} {n : Node} (hn : n.Placed P) :
    ValueBlames P (statement self f rounds n) := by
  cases n with
  | expression s e => exact hself (.expression e) f (Node.placed_expression.1 hn).2
  | declaration s x v =>
    rw [statement]
    exact (hself (.expression v) f (Node.placed_declaration.1 hn).2.2).bind fun _ hv => .declare hv
  | assignment s x v =>
    rw [statement]
    exact (hself (.expression v) f (Node.placed_assignment.1 hn).2.2).bind fun _ hv => .assign hv
  | block s ns => exact .statements hself resultHolds_none (Node.placed_block.1 hn).2
  | whileLoop s c b =>
    obtain ⟨-, hc, hb⟩ := Node.placed_whileLoop.1 hn
    exact .loop (hself (.expression c) f hc) (blames_block hself hb) resultHolds_none trivial rounds
  | forLoop s i c p b =>
    obtain ⟨-, hi, hc, hp, hb⟩ := Node.placed_forLoop.1 hn
    rw [statement]
    refine (hself (.statement i) f hi).bind fun _ _ => ?_
    refine .loop (hself (.expression c) f hc) ?_ resultHolds_none trivial rounds
    refine (blames_block hself hb).bind fun v hv => ?_
    exact (hself (.statement p) f hp).bind fun _ _ => .pure hv
  | _ => exact .throw trivial

end

end Run

open Run

/-- **A failure is blamed on a node of what is evaluated**, or of a function that was made. -/
theorem evalTask_blames (rounds : Nat) : ∀ (depth : Nat) (task : Task) (f : FrameId),
    task.Placed P → ValueBlames P (evalTask rounds depth task f)
  | depth + 1, .body _, _, hn => blames_block (evalTask_blames rounds depth) hn
  | depth + 2, .statement _, _, hn => blames_statement (evalTask_blames rounds depth) hn
  | depth + 2, .expression _, _, hn => blames_expression (evalTask_blames rounds depth) hn
  | 0, _, _, _ | 1, .statement _, _, _ | 1, .expression _, _, _ => .throw trivial

/-- So is one of a program. -/
theorem program_blames (rounds depth : Nat) (f : FrameId) {p : Program}
    (hp : p.toNode.Placed P) : ValueBlames P (evalNode rounds depth p.toNode f) :=
  .statements (evalTask_blames rounds depth) resultHolds_none (Node.placed_program.1 hp).2

end Ember

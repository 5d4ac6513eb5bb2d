import Ember.Proofs.Eval.Invariant
import Ember.Proofs.Eval.Operators
import Ember.Proofs.Grammar.Whole

/-!
# Evaluation of whole trees

A whole tree, evaluated where all functions have whole bodies, never meets a node in the
wrong place or an operator that is not one (`evalTask_safe`, `program_safe`). It comes
to a value, fails for a reason that the program is to blame for, or runs out of levels
or rounds; and the functions that it leaves behind have whole bodies again.
-/

namespace Ember

/-- The body of a function is whole; other values have no parts. -/
def Value.Whole : Value → Prop
  | .function c => Ember.Whole .block c.body
  | .integer _ | .boolean _ => True

/-- All functions in the cells have whole bodies. -/
def Heap.Whole (h : Heap) : Prop :=
  ∀ c, ∀ v ∈ h.content c, v.Whole

/-- What is to be evaluated is whole. -/
def Task.Whole : Task → Prop
  | .expression n => Ember.Whole .expression n
  | .statement n => Ember.Whole .statement n
  | .body n => Ember.Whole .block n

/-- The failure is not about an operator that the language does not have. -/
def RuntimeCause.Known : RuntimeCause → Prop
  | .typeMismatch operation => ¬ "unknown operator".toList <+: operation.toList
  | _ => True

/-- The evaluation ends early for a failure of the program or for a limit. -/
def EvalStop.Proper : EvalStop → Prop
  | .failed cause _ => cause.Known
  | .tooDeep => True
  | .fault reason => reason = .endless

theorem Heap.whole_initial : initial.Whole :=
  holds_initial

/-! ## Operators -/

/-- An operation whose text does not start like the unknown ones is known. -/
theorem RuntimeCause.known_of_head {operation : String} (h : operation.toList.head? ≠ some 'u') :
    (RuntimeCause.typeMismatch operation).Known := by
  rintro ⟨rest, hrest⟩
  rw [← hrest] at h
  exact h rfl

/-- Operands that do not go together are a known failure. -/
theorem operandMismatch_known (left : Option Value) (operator : String) (right : Option Value) :
    (operandMismatch left operator right).Known := by
  refine RuntimeCause.known_of_head ?_
  rcases left with _ | (_ | _ | _) <;>
    simp [typeNameOf, Value.typeName, String.toList_append]

/-- Operators that are written between integers fail for known reasons only. -/
theorem integerOperation_known {operator : String} {a b : Int} {cause : RuntimeCause}
    (ho : operator ∈ infixOperators) (h : integerOperation operator a b = .error cause) :
    cause.Known := by
  unfold integerOperation at h
  split at h
  case h_4 =>
    split at h
    · cases h
    · cases h
      trivial
  case h_11 => simp_all [infixOperators]
  all_goals cases h

/-- Operators that are written between operands fail for known reasons only. -/
theorem binaryOperation_known {operator : String} {left right : Option Value} {cause : RuntimeCause}
    (ho : operator ∈ infixOperators) (h : binaryOperation operator left right = .error cause) :
    cause.Known := by
  unfold binaryOperation at h
  split at h
  · exact integerOperation_known ho h
  · split at h <;> cases h
    exact operandMismatch_known _ _ _
  · cases h
    exact operandMismatch_known _ _ _

/-- Operators that are written in front fail for known reasons only. -/
theorem unaryOperation_known {operator : String} {operand : Option Value} {cause : RuntimeCause}
    (ho : operator ∈ prefixOperators) (h : unaryOperation operator operand = .error cause) :
    cause.Known := by
  unfold unaryOperation at h
  split at h
  · cases h
  · split at h <;> cases h
    refine RuntimeCause.known_of_head ?_
    simp [String.toList_append]
  · simp_all [prefixOperators]

/-- Values that are no functions are whole. -/
theorem Value.Plain.whole {v : Value} (hv : v.Plain) : v.Whole := by
  cases v with
  | function c => cases hv
  | _ => trivial

/-! ## Evaluations -/

namespace Run

variable {α β : Type}

/-- From a whole heap the evaluation comes to a result that satisfies `P`, or ends
properly, and leaves a whole heap behind. -/
def Safe (x : Run α) (P : α → Prop) : Prop :=
  ∀ h : Heap, h.Whole → match x h with
    | .ok a h' => P a ∧ h'.Whole
    | .error stop h' => stop.Proper ∧ h'.Whole

theorem safe_pure {a : α} {P : α → Prop} (ha : P a) : Safe (pure a) P :=
  fun _ hh => ⟨ha, hh⟩

theorem safe_throw {stop : EvalStop} {P : α → Prop} (hs : stop.Proper) :
    Safe (throw stop : Run α) P :=
  fun _ hh => ⟨hs, hh⟩

/-- Safe evaluations in turn are safe. -/
theorem safe_bind {x : Run α} {k : α → Run β} {P : α → Prop} {Q : β → Prop} (hx : Safe x P)
    (hk : ∀ a, P a → Safe (k a) Q) : Safe (x >>= k) Q :=
  Preserves.bind hx hk

/-- A value of an evaluation: whole, if there is one. -/
abbrev WholeResult (v : Option Value) : Prop := ∀ w ∈ v, w.Whole

section

variable {self : Task → FrameId → Run (Option Value)} {f : FrameId}
  (hself : ∀ task f, task.Whole → Safe (self task f) WholeResult)

include hself

/-- A whole block is safe to evaluate. -/
theorem safe_block {n : Node} (hn : Whole .block n) : Safe (block self f n) WholeResult := by
  cases hn with
  | block hns => exact Preserves.statements hself resultHolds_none hns

/-- A call is safe: the function it finds is whole. -/
theorem safe_call {span : Option Span} {callee : Node} {args : List Node}
    (hc : Whole .expression callee) (hargs : ∀ n ∈ args, Whole .expression n) :
    Safe (expression self f (.call span callee args)) WholeResult := by
  rw [expression]
  refine safe_bind (hself (.expression _) f hc) fun function hf => ?_
  refine safe_bind (Preserves.arguments hself (by simp) hargs) fun values hv => ?_
  have hvalues : ∀ v ∈ values.toList, WholeResult v := fun v hmem =>
    hv v (Array.mem_toList_iff.1 hmem)
  exact Preserves.apply hself (fun _ hbody => hbody) hf hvalues (fun _ _ => trivial)
    fun _ => trivial

/-- A whole expression is safe to evaluate. -/
theorem safe_expression {n : Node} (hn : Whole .expression n) :
    Safe (expression self f n) WholeResult := by
  cases hn with
  | identifier => exact Preserves.get trivial
  | integer => exact safe_pure (resultHolds_some trivial)
  | unary ho hn =>
    rw [expression]
    exact safe_bind (hself (.expression _) f hn) fun v _ =>
      Preserves.ofOperation (fun _ h => (unaryOperation_plain h).whole) fun _ =>
        unaryOperation_known ho
  | binary ho hl hr =>
    rw [expression]
    exact safe_bind (hself (.expression _) f hl) fun _ _ =>
      safe_bind (hself (.expression _) f hr) fun _ _ =>
        Preserves.ofOperation (fun _ h => (binaryOperation_plain h).whole) fun _ =>
          binaryOperation_known ho
  | ifOnly hc hb =>
    rw [expression]
    refine safe_bind (hself (.expression _) f hc) fun v _ => ?_
    split
    · exact safe_block hself hb
    · exact safe_pure resultHolds_none
  | ifElse hc hb ha =>
    rw [expression]
    refine safe_bind (hself (.expression _) f hc) fun v _ => ?_
    split
    · exact safe_block hself hb
    split
    · exact safe_pure resultHolds_none
    · exact safe_block hself ha
  | function hb => exact fun h hh => ⟨resultHolds_some hb, hh⟩
  | call hc hargs => exact safe_call hself hc hargs

/-- A whole declaration or assignment is safe to evaluate. -/
theorem safe_clause {rounds : Nat} {n : Node} (hn : Whole .clause n) :
    Safe (statement self f rounds n) WholeResult := by
  cases hn with
  | declaration hv =>
    rw [statement]
    exact safe_bind (hself (.expression _) f hv) fun _ hw =>
      Preserves.declare (E := EvalStop.Proper) hw
  | assignment hv =>
    rw [statement]
    exact safe_bind (hself (.expression _) f hv) fun _ hw =>
      Preserves.assign (E := EvalStop.Proper) hw

/-- A whole statement is safe to evaluate, however many rounds its loops make. -/
theorem safe_statement {rounds : Nat} {n : Node} (hn : Whole .statement n) :
    Safe (statement self f rounds n) WholeResult := by
  cases hn with
  | clause hn => exact safe_clause hself hn
  | expressionStatement he => exact hself (.expression _) f he
  | whileLoop hc hb =>
    exact Preserves.loop (hself (.expression _) f hc) (safe_block hself hb) resultHolds_none rfl
      rounds
  | forLoop hi hc hp hb =>
    rw [statement]
    refine safe_bind (hself (.statement _) f (.clause hi)) fun _ _ => ?_
    -- a round is worth what its body is worth, not what the last clause is
    refine Preserves.loop (hself (.expression _) f hc) ?_ resultHolds_none rfl rounds
    refine safe_bind (safe_block hself hb) fun v hv => ?_
    exact safe_bind (hself (.statement _) f (.clause hp)) fun _ _ => safe_pure hv

end

end Run

open Run

/-- **Whole trees are evaluated safely**, however deep they nest. -/
theorem evalTask_safe (rounds : Nat) : ∀ (depth : Nat) (task : Task) (f : FrameId), task.Whole →
    Safe (evalTask rounds depth task f) WholeResult
  | depth + 1, .body _, _, hn => safe_block (evalTask_safe rounds depth) hn
  | depth + 2, .statement _, _, hn => safe_statement (evalTask_safe rounds depth) hn
  | depth + 2, .expression _, _, hn => safe_expression (evalTask_safe rounds depth) hn
  | 0, _, _, _ | 1, .statement _, _, _ | 1, .expression _, _, _ => safe_throw trivial

/-- A program of whole statements is evaluated safely. -/
theorem program_safe (rounds depth : Nat) (span : Option Span) (f : FrameId) {ns : List Node}
    (hns : ∀ n ∈ ns, Whole .statement n) :
    Safe (evalNode rounds depth (.program span ns) f) WholeResult :=
  Preserves.statements (evalTask_safe rounds depth) resultHolds_none hns

end Ember

import Ember.Proofs.Eval.Path

/-!
# Arithmetic

Trees of integer literals, minus signs and the four basic operators have an exact value, or a
division by zero that comes first. Their evaluation gives the value or fails there, and
leaves the heap alone (`Arithmetic.eval`).
-/

namespace Ember

/-- A tree of integer literals, minus signs and basic operators that nests at most as
deeply as the number says. -/
inductive Arithmetic : Nat → Node → Prop
  | literal {levels : Nat} {span : Option Span} {value : Int} :
      Arithmetic (levels + 1) (.integer span value)
  | negative {levels : Nat} {span : Option Span} {e : Node} :
      Arithmetic levels e → Arithmetic (levels + 1) (.unary span "-" e)
  | operation {levels : Nat} {span : Option Span} {operator : String} {left right : Node} :
      operator ∈ ["+", "-", "*", "/"] → Arithmetic levels left → Arithmetic levels right →
      Arithmetic (levels + 1) (.binary span left operator right)

/-- The exact result of an operator between two integers. A quotient is rounded toward
zero: the remainder is smaller than the divisor, and zero or of the sign of the dividend. -/
def Computes (operator : String) (x y v : Int) : Prop :=
  match operator with
  | "+" => v = x + y
  | "-" => v = x - y
  | "*" => v = x * y
  | "/" => ∃ r : Int, x = y * v + r ∧ r.natAbs < y.natAbs ∧ (r = 0 ∨ r.sign = x.sign)
  | _ => False

/-- The exact value of a tree. -/
inductive Denotes : Node → Int → Prop
  | literal {span : Option Span} {value : Int} : Denotes (.integer span value) value
  | negative {span : Option Span} {e : Node} {x : Int} :
      Denotes e x → Denotes (.unary span "-" e) (-x)
  | operation {span : Option Span} {operator : String} {left right : Node} {x y v : Int} :
      Denotes left x → Denotes right y → Computes operator x y v →
      Denotes (.binary span left operator right) v

/-- The place of the first division by zero, from left to right and operands first. -/
inductive FirstZero : Node → Option Span → Prop
  | inside {span zero : Option Span} {e : Node} :
      FirstZero e zero → FirstZero (.unary span "-" e) zero
  | left {span zero : Option Span} {operator : String} {left right : Node} :
      FirstZero left zero → FirstZero (.binary span left operator right) zero
  | right {span zero : Option Span} {operator : String} {left right : Node} {x : Int} :
      Denotes left x → FirstZero right zero → FirstZero (.binary span left operator right) zero
  | here {span : Option Span} {left right : Node} {x : Int} :
      Denotes left x → Denotes right 0 → FirstZero (.binary span left "/" right) span

/-! ## Quotients -/

/-- The quotient of the absolute values, with the sign put right, is rounded toward zero. -/
theorem truncatingDivide_eq {a b : Int} (hb : b ≠ 0) :
    truncatingDivide a b = some (a.tdiv b) := by
  have habs : (a.tdiv b).natAbs = a.natAbs / b.natAbs := Int.natAbs_tdiv a b
  rw [truncatingDivide, if_neg hb, ← habs]
  refine congrArg some ?_
  split
  · next hsigns =>
    have hsigns : ¬ (a < 0 ↔ b < 0) := fun hall => hsigns (propext hall)
    have hq : a.tdiv b ≤ 0 := by
      rcases Int.lt_or_le a 0 with ha | ha
      · have hneg : 0 ≤ (-a).tdiv b := Int.tdiv_nonneg (by omega) (by omega)
        rw [Int.neg_tdiv] at hneg
        omega
      · exact Int.tdiv_nonpos_of_nonneg_of_nonpos ha (by omega)
    omega
  · next hsigns =>
    have hsigns : a < 0 ↔ b < 0 := Iff.of_eq (Decidable.not_not.1 hsigns)
    have hq : 0 ≤ a.tdiv b := by
      rcases Int.lt_or_le a 0 with ha | ha
      · exact Int.tdiv_nonneg_of_nonpos_of_nonpos (by omega) (by omega)
      · exact Int.tdiv_nonneg ha (by omega)
    omega

/-- Rounding toward zero leaves a small remainder of the sign of the dividend. -/
theorem tdiv_spec (x : Int) {y : Int} (hy : y ≠ 0) :
    x = y * x.tdiv y + x.tmod y ∧ (x.tmod y).natAbs < y.natAbs ∧
      (x.tmod y = 0 ∨ (x.tmod y).sign = x.sign) := by
  refine ⟨(Int.mul_tdiv_add_tmod x y).symm, ?_, ?_⟩
  · rw [Int.natAbs_tmod]
    exact Nat.mod_lt _ (Int.natAbs_pos.2 hy)
  · by_cases hd : y ∣ x
    · exact .inl (Int.tmod_eq_zero_of_dvd hd)
    · exact .inr (by rw [Int.sign_tmod, if_neg hd])

/-- Only the quotient rounded toward zero leaves such a remainder. -/
theorem eq_tdiv {x y q r : Int} (he : x = y * q + r) (hr : r.natAbs < y.natAbs)
    (hs : r = 0 ∨ r.sign = x.sign) : q = x.tdiv y := by
  have hy : y ≠ 0 := by
    intro hy
    rw [hy] at hr
    exact Nat.not_lt_zero _ hr
  obtain ⟨he', hr', hs'⟩ := tdiv_spec x hy
  -- the remainders lie on the same side of zero
  have hclose : (x.tmod y - r).natAbs < y.natAbs := by
    rcases Int.lt_trichotomy x 0 with hx | hx | hx
    · rw [Int.sign_eq_neg_one_of_neg hx, Int.sign_eq_neg_one_iff_neg] at hs hs'
      omega
    · subst hx
      rw [Int.sign_zero, Int.sign_eq_zero_iff_zero] at hs hs'
      omega
    · rw [Int.sign_eq_one_of_pos hx, Int.sign_eq_one_iff_pos] at hs hs'
      omega
  have hmul : y * (q - x.tdiv y) = x.tmod y - r := by
    rw [Int.mul_sub]
    omega
  rcases Nat.eq_zero_or_pos (q - x.tdiv y).natAbs with hzero | hpos
  · omega
  · rw [← hmul, Int.natAbs_mul] at hclose
    exact absurd hclose (Nat.not_lt.2 (Nat.le_mul_of_pos_right _ hpos))

/-! ## Values -/

variable {e n n' : Node} {x y v : Int} {zero zero' : Option Span} {levels : Nat}

theorem Computes.unique {operator : String} {v' : Int} (h : Computes operator x y v)
    (h' : Computes operator x y v') : v = v' := by
  unfold Computes at h h'
  split at h
  · exact h.trans h'.symm
  · exact h.trans h'.symm
  · exact h.trans h'.symm
  · obtain ⟨r, he, hr, hs⟩ := h
    obtain ⟨r', he', hr', hs'⟩ := h'
    exact (eq_tdiv he hr hs).trans (eq_tdiv he' hr' hs').symm
  · exact h.elim

theorem not_computes_zero : ¬ Computes "/" x 0 v := by
  rintro ⟨r, -, hr, -⟩
  exact Nat.not_lt_zero _ hr

theorem Denotes.unique (h : Denotes n x) (h' : Denotes n y) : x = y := by
  induction h generalizing y with
  | literal => cases h'; rfl
  | negative _ ih => cases h' with | negative h' => rw [ih h']
  | operation _ _ hc ih₁ ih₂ =>
    cases h' with
    | operation h₁ h₂ hc' =>
      rw [ih₁ h₁, ih₂ h₂] at hc
      exact hc.unique hc'

/-- A tree with a division by zero has no value. -/
theorem FirstZero.not_denotes (h : FirstZero n zero) : ¬ Denotes n v := by
  induction h generalizing v with
  | inside _ ih =>
    intro hv
    cases hv with
    | negative hv => exact ih hv
  | left _ ih =>
    intro hv
    cases hv with
    | operation hl => exact ih hl
  | right _ _ ih =>
    intro hv
    cases hv with
    | operation _ hr => exact ih hr
  | here _ hzero =>
    intro hv
    cases hv with
    | operation _ hy hc =>
      rw [hy.unique hzero] at hc
      exact not_computes_zero hc

theorem FirstZero.unique (h : FirstZero n zero) (h' : FirstZero n zero') : zero = zero' := by
  induction h generalizing zero' with
  | inside _ ih => cases h' with | inside h' => exact ih h'
  | left h ih =>
    cases h' with
    | left h' => exact ih h'
    | right hl | here hl => exact absurd hl h.not_denotes
  | right hl h ih =>
    cases h' with
    | left h' => exact absurd hl h'.not_denotes
    | right _ h' => exact ih h'
    | here _ hr => exact absurd hr h.not_denotes
  | here hl hr =>
    cases h' with
    | left h' => exact absurd hl h'.not_denotes
    | right _ h' => exact absurd hr h'.not_denotes
    | here => rfl

/-! ## Spans -/

/-- Spans do not matter for the value. -/
theorem Denotes.of_erase (h : Denotes n v) (he : n.erase = n'.erase) : Denotes n' v := by
  induction h generalizing n' with
  | literal =>
    cases n' <;> cases he
    exact .literal
  | negative _ ih =>
    cases n' <;> simp only [Node.erase, reduceCtorEq, Node.unary.injEq] at he
    obtain ⟨-, rfl, he⟩ := he
    exact .negative (ih he)
  | operation _ _ hc ih₁ ih₂ =>
    cases n' <;> simp only [Node.erase, reduceCtorEq, Node.binary.injEq] at he
    obtain ⟨-, he₁, rfl, he₂⟩ := he
    exact .operation (ih₁ he₁) (ih₂ he₂) hc

theorem Arithmetic.of_erase (h : Arithmetic levels n) (he : n.erase = n'.erase) :
    Arithmetic levels n' := by
  induction h generalizing n' with
  | literal =>
    cases n' <;> cases he
    exact .literal
  | negative _ ih =>
    cases n' <;> simp only [Node.erase, reduceCtorEq, Node.unary.injEq] at he
    obtain ⟨-, rfl, he⟩ := he
    exact .negative (ih he)
  | operation ho _ _ ih₁ ih₂ =>
    cases n' <;> simp only [Node.erase, reduceCtorEq, Node.binary.injEq] at he
    obtain ⟨-, he₁, rfl, he₂⟩ := he
    exact .operation ho (ih₁ he₁) (ih₂ he₂)

theorem Arithmetic.mono {levels' : Nat} (h : Arithmetic levels n) (hle : levels ≤ levels') :
    Arithmetic levels' n := by
  induction h generalizing levels' with
  | literal =>
    obtain ⟨m, rfl⟩ := Nat.exists_eq_add_of_le' hle
    exact .literal
  | negative _ ih =>
    cases levels' with
    | zero => cases hle
    | succ m => exact .negative (ih (Nat.le_of_succ_le_succ hle))
  | operation ho _ _ ih₁ ih₂ =>
    cases levels' with
    | zero => cases hle
    | succ m =>
      exact .operation ho (ih₁ (Nat.le_of_succ_le_succ hle)) (ih₂ (Nat.le_of_succ_le_succ hle))

/-! ## Evaluation -/

/-- How the evaluation of a tree in a heap may end: with its value, at its first division by
zero, or at the limit on the nesting, when there are fewer than `needed` levels. -/
inductive Settles (n : Node) (h : Heap) (depth needed : Nat) :
    EStateM.Result EvalStop Heap (Option Value) → Prop
  | value {v : Int} : Denotes n v → Settles n h depth needed (.ok (some (.integer v)) h)
  | zero {zero : Option Span} : FirstZero n zero →
      Settles n h depth needed (.error (.failed .divisionByZero zero) h)
  | tooDeep : depth < needed → Settles n h depth needed (.error .tooDeep h)

/-- An operator computes the exact result, or divides by zero. -/
theorem binaryOperation_arithmetic {operator : String} (ho : operator ∈ ["+", "-", "*", "/"])
    (x y : Int) :
    (∃ v, Computes operator x y v ∧
      binaryOperation operator (some (.integer x)) (some (.integer y)) = .ok (.integer v)) ∨
    (operator = "/" ∧ y = 0 ∧
      binaryOperation operator (some (.integer x)) (some (.integer y)) =
        .error .divisionByZero) := by
  simp only [List.mem_cons, List.not_mem_nil, or_false] at ho
  rcases ho with rfl | rfl | rfl | rfl
  · exact .inl ⟨_, rfl, rfl⟩
  · exact .inl ⟨_, rfl, rfl⟩
  · exact .inl ⟨_, rfl, rfl⟩
  · by_cases hy : y = 0
    · subst hy
      exact .inr ⟨rfl, rfl, rfl⟩
    · refine .inl ⟨x.tdiv y, ⟨x.tmod y, tdiv_spec x hy⟩, ?_⟩
      simp only [binaryOperation, integerOperation, truncatingDivide_eq hy]

theorem evalTask_unary (rounds depth : Nat) (span : Option Span) (operator : String) (e : Node)
    (f : FrameId) :
    evalTask rounds (depth + 2) (.expression (.unary span operator e)) f =
      evalTask rounds depth (.expression e) f >>= fun value =>
        Run.ofOperation span (unaryOperation operator value) :=
  rfl

theorem evalTask_binary (rounds depth : Nat) (span : Option Span) (operator : String)
    (left right : Node) (f : FrameId) :
    evalTask rounds (depth + 2) (.expression (.binary span left operator right)) f =
      evalTask rounds depth (.expression left) f >>= fun a =>
        evalTask rounds depth (.expression right) f >>= fun b =>
          Run.ofOperation span (binaryOperation operator a b) :=
  rfl

/-- **Arithmetic is evaluated exactly**, and without any effect. -/
theorem Arithmetic.eval (hn : Arithmetic levels n) (rounds depth : Nat) (f : FrameId) (h : Heap) :
    Settles n h depth (2 * levels) (evalTask rounds depth (.expression n) f h) := by
  induction hn generalizing depth with
  | @literal levels span value =>
    match depth with
    | 0 | 1 => exact .tooDeep (by omega)
    | depth + 2 => exact .value .literal
  | @negative levels span e he ih =>
    match depth with
    | 0 | 1 => exact .tooDeep (by omega)
    | depth + 2 =>
      rw [evalTask_unary, Run.bind_apply]
      have hi := ih depth
      generalize evalTask rounds depth (.expression e) f h = r at hi
      cases hi with
      | value hv => exact .value (.negative hv)
      | zero hz => exact .zero (.inside hz)
      | tooDeep hd => exact .tooDeep (by omega)
  | @operation levels span operator left right ho hl hr ih₁ ih₂ =>
    match depth with
    | 0 | 1 => exact .tooDeep (by omega)
    | depth + 2 =>
      rw [evalTask_binary, Run.bind_apply]
      have hi := ih₁ depth
      generalize evalTask rounds depth (.expression left) f h = r at hi
      cases hi with
      | zero hz => exact .zero (.left hz)
      | tooDeep hd => exact .tooDeep (by omega)
      | @value x hx =>
        dsimp only
        rw [Run.bind_apply]
        have hi := ih₂ depth
        generalize evalTask rounds depth (.expression right) f h = r at hi
        cases hi with
        | zero hz => exact .zero (.right hx hz)
        | tooDeep hd => exact .tooDeep (by omega)
        | @value y hy =>
          rcases binaryOperation_arithmetic ho x y with ⟨v, hc, hv⟩ | ⟨rfl, rfl, hz⟩
          · dsimp only
            rw [hv]
            exact .value (.operation hx hy hc)
          · dsimp only
            rw [hz]
            exact .zero (.here hx hy)

end Ember

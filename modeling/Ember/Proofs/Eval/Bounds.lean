import Ember.Proofs.Eval.Path

/-!
# More rounds and more levels

The bounds on the rounds of a loop and on the nesting decide nothing but whether an
evaluation is given up. One that comes to a value or a failure within its bounds comes to the
same value or failure, and leaves the same heap behind, with more rounds and with more levels
(`evalTask_extends`).
-/

namespace Ember

namespace Run

variable {α β : Type} {stop : EvalStop}

/-- Where `x` is not given up for the reason `stop`, `y` does the same. -/
def Extends (stop : EvalStop) (x y : Run α) : Prop :=
  ∀ h : Heap, (∃ h', x h = .error stop h') ∨ y h = x h

/-- The bounds are the same, or the second is greater and running out of it is the reason to
give up. -/
def Raised (reason stop : EvalStop) (n m : Nat) : Prop :=
  n = m ∨ n ≤ m ∧ stop = reason

/-- A bound that is raised is still so when both go down by one. -/
theorem Raised.pred {reason : EvalStop} {n m : Nat} (h : Raised reason stop (n + 1) m) :
    ∃ k, m = k + 1 ∧ Raised reason stop n k := by
  rcases h with rfl | ⟨hle, hs⟩
  · exact ⟨n, rfl, .inl rfl⟩
  · exact ⟨m - 1, by omega, .inr ⟨by omega, hs⟩⟩

theorem Extends.refl (x : Run α) : Extends stop x x := fun _ => .inr rfl

/-- Evaluations in turn are extended in turn. -/
theorem Extends.bind {x y : Run α} {k l : α → Run β} (hx : Extends stop x y)
    (hk : ∀ a, Extends stop (k a) (l a)) : Extends stop (x >>= k) (y >>= l) := by
  intro h
  rw [bind_apply, bind_apply]
  rcases hx h with ⟨h', hw⟩ | hw
  · rw [hw]
    exact .inl ⟨h', rfl⟩
  · rw [hw]
    cases hw' : x h with
    | ok a h' => exact hk a h'
    | error reason h' => exact .inr rfl

/-- Where a bound is used up, the same is done with the same bound, and with a greater one
anything may be. -/
theorem Raised.extends_throw {reason : EvalStop} {n m : Nat} (hb : Raised reason stop n m)
    {y : Run α} (hy : n = m → y = throw reason) : Extends stop (throw reason) y := by
  rcases hb with he | ⟨-, rfl⟩
  · rw [hy he]
    exact .refl _
  · exact fun h => .inl ⟨h, rfl⟩

theorem Extends.ite {c : Prop} [Decidable c] {x y x' y' : Run α} (hx : Extends stop x x')
    (hy : Extends stop y y') : Extends stop (if c then x else y) (if c then x' else y') := by
  split
  · exact hx
  · exact hy

/-- A loop is extended by better rounds, and by more of them. -/
theorem Extends.loop {condition condition' round round' : Run (Option Value)}
    (hc : Extends stop condition condition') (hr : Extends stop round round') {n m : Nat}
    (hn : Raised (.fault .endless) stop n m) (last : Option Value) :
    Extends stop (loop condition round last n) (loop condition' round' last m) := by
  -- both bounds go down by one in each round, and the smaller one is used up first
  induction n generalizing m last with
  | zero => exact hn.extends_throw fun he => he ▸ rfl
  | succ n ih =>
    obtain ⟨m, rfl, hm⟩ := hn.pred
    rw [Run.loop, Run.loop]
    refine hc.bind fun v => .ite ?_ (.refl _)
    exact hr.bind fun w => ih hm w

/-! ## The rules over what stands inside -/

section

variable {self self' : Task → FrameId → Run (Option Value)} {f : FrameId}
  (hself : ∀ task f, Extends stop (self task f) (self' task f))

include hself

/-- Statements are extended one after the other. -/
theorem extends_statements (last : Option Value) (ns : List Node) :
    Extends stop (statements self f last ns) (statements self' f last ns) := by
  induction ns generalizing last with
  | nil => exact .refl _
  | cons n ns ih =>
    rw [statements, statements]
    exact (hself _ f).bind ih

/-- A block is extended as its statements are. -/
theorem extends_block (n : Node) : Extends stop (block self f n) (block self' f n) := by
  unfold block
  split
  · exact extends_statements hself none _
  · exact .refl _

/-- Arguments are extended one after the other. -/
theorem extends_arguments (found : Array (Option Value)) (ns : List Node) :
    Extends stop (arguments self f found ns) (arguments self' f found ns) := by
  induction ns generalizing found with
  | nil => exact .refl _
  | cons n ns ih =>
    rw [arguments, arguments]
    exact (hself _ f).bind fun v => ih (found.push v)

/-- A call is extended as the body of its function is. -/
theorem extends_apply (span : Option Span) (callee : Node) (function : Option Value)
    (args : List (Option Value)) :
    Extends stop (apply self span callee function args)
      (apply self' span callee function args) := by
  unfold apply
  split
  · next c =>
    refine .ite (.refl _) ?_
    exact (Extends.refl _).bind fun inner => hself (.body c.body) inner
  · exact .refl _

/-- An expression is extended as its parts are. -/
theorem extends_expression (n : Node) :
    Extends stop (expression self f n) (expression self' f n) := by
  cases n with
  | unary =>
    rw [expression, expression]
    exact (hself _ f).bind fun _ => .refl _
  | binary =>
    rw [expression, expression]
    exact (hself _ f).bind fun _ => (hself _ f).bind fun _ => .refl _
  | conditional =>
    rw [expression, expression]
    refine (hself _ f).bind fun v => .ite (extends_block hself _) ?_
    exact .ite (.refl _) (extends_block hself _)
  | call =>
    rw [expression, expression]
    refine (hself _ f).bind fun function => (extends_arguments hself #[] _).bind fun values => ?_
    exact extends_apply hself _ _ function values.toList
  | _ => exact .refl _

/-- A statement is extended as its parts are, and its loop by more rounds. -/
theorem extends_statement {rounds rounds' : Nat}
    (hr : Raised (.fault .endless) stop rounds rounds') (n : Node) :
    Extends stop (statement self f rounds n) (statement self' f rounds' n) := by
  cases n with
  | expression => exact hself _ f
  | declaration =>
    rw [statement, statement]
    exact (hself _ f).bind fun _ => .refl _
  | assignment =>
    rw [statement, statement]
    exact (hself _ f).bind fun _ => .refl _
  | block => exact extends_statements hself none _
  | whileLoop => exact .loop (hself _ f) (extends_block hself _) hr none
  | forLoop =>
    rw [statement, statement]
    refine (hself _ f).bind fun _ => .loop (hself _ f) ?_ hr none
    exact (extends_block hself _).bind fun _ => (hself _ f).bind fun _ => .refl _
  | _ => exact .refl _

end

end Run

open Run

variable {stop : EvalStop} {rounds rounds' depth depth' : Nat}

/-- **More rounds and more levels change no evaluation that has enough of them.** -/
theorem evalTask_extends (hr : Raised (.fault .endless) stop rounds rounds')
    (hd : Raised .tooDeep stop depth depth') (task : Task) (f : FrameId) :
    Extends stop (evalTask rounds depth task f) (evalTask rounds' depth' task f) := by
  -- a body stands one level further in, the other two stand two levels further in
  induction depth using Nat.strongRecOn generalizing depth' task f with
  | ind depth ih =>
    cases task with
    | body n =>
      rcases depth with _ | depth
      · exact hd.extends_throw fun he => he ▸ rfl
      · obtain ⟨depth', rfl, hbody⟩ := hd.pred
        exact extends_block (ih depth (by omega) hbody) n
    | statement n =>
      rcases depth with _ | _ | depth
      · exact hd.extends_throw fun he => he ▸ rfl
      · exact hd.extends_throw fun he => he ▸ rfl
      · obtain ⟨_, rfl, houter⟩ := hd.pred
        obtain ⟨depth', rfl, hinner⟩ := houter.pred
        exact extends_statement (ih depth (by omega) hinner) hr n
    | expression n =>
      rcases depth with _ | _ | depth
      · exact hd.extends_throw fun he => he ▸ rfl
      · exact hd.extends_throw fun he => he ▸ rfl
      · obtain ⟨_, rfl, houter⟩ := hd.pred
        obtain ⟨depth', rfl, hinner⟩ := houter.pred
        exact extends_expression (ih depth (by omega) hinner) n

/-- **More rounds and more levels extend the evaluation of a program.** -/
theorem program_extends (hr : Raised (.fault .endless) stop rounds rounds')
    (hd : Raised .tooDeep stop depth depth') (span : Option Span) (ns : List Node) (f : FrameId) :
    Extends stop (evalNode rounds depth (.program span ns) f)
      (evalNode rounds' depth' (.program span ns) f) :=
  extends_statements (evalTask_extends hr hd) none ns

end Ember

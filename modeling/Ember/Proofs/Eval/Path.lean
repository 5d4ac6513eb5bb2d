import Ember.Session

/-!
# Paths of an evaluation

An evaluation changes the heap in four ways: it declares a name in its frame, assigns
to one there, captures the frame, and calls a function, whose body is evaluated in a
new frame. What holds of these, and carries over from one to the next, holds of every
evaluation, whether it comes to a value or not: `evalTask_along` and `evalNode_along`. It holds
also up to every heap that the evaluation comes by on the way: `evalUntil_along`.
-/

namespace Ember

namespace Heap

/-- The frame of a call, and the heap with that frame in it: it lies inside the frame
of the function and binds the parameters to the arguments. -/
def enter (h : Heap) (f : FrameId) (name : String) (bindings : List (String × Option Value)) :
    FrameId × Heap :=
  let inner := (h.enclose f name).1
  (inner, (h.enclose f name).2.declareAll inner bindings)

/-- What a family of relations, one for each frame, has to satisfy to hold along
every evaluation in that frame. -/
class Path (R : FrameId → Heap → Heap → Prop) : Prop where
  stay (f : FrameId) (h : Heap) : R f h h
  trans {f : FrameId} {h₁ h₂ h₃ : Heap} : R f h₁ h₂ → R f h₂ h₃ → R f h₁ h₃
  declare (f : FrameId) (h : Heap) (name : String) (value : Option Value) :
    R f h (h.declare f name value)
  assign (f : FrameId) (h : Heap) (name : String) (value : Option Value) :
    R f h (h.assign f name value)
  capture (f : FrameId) (h : Heap) : R f h (h.capture f).2
  /-- The function of a call may come from any frame. -/
  call {f g : FrameId} {h h' : Heap} {name : String} {bindings : List (String × Option Value)} :
    R (h.enter g name bindings).1 (h.enter g name bindings).2 h' → R f h h'

end Heap

namespace Run

variable {α β : Type}

/-- The heap that an evaluation leaves behind. -/
def after (x : Run α) (h : Heap) : Heap :=
  match x h with
  | .ok _ h' | .error _ h' => h'

theorem bind_apply (x : Run α) (f : α → Run β) (h : Heap) :
    (x >>= f) h = match x h with
      | .ok a h' => f a h'
      | .error stop h' => .error stop h' := by
  change EStateM.bind x f h = _
  unfold EStateM.bind
  cases x h <;> rfl

/-- Looking up a name changes nothing. -/
theorem get_apply (f : FrameId) (name : String) (span : Option Span) (h : Heap) :
    get f name span h = match h.get? f name with
      | some v => .ok v h
      | none => .error (.failed (.undefined name) span) h := by
  unfold get
  rw [bind_apply]
  change (match h.get? f name with
    | some v => pure v
    | none => fail (.undefined name) span : Run (Option Value)) h = _
  cases h.get? f name <;> rfl

/-- The relation of the frame holds from a heap to the one that is left behind. -/
class Along (R : FrameId → Heap → Heap → Prop) (f : FrameId) (x : Run α) : Prop where
  run (h : Heap) : R f h (x.after h)

variable {R : FrameId → Heap → Heap → Prop} [Heap.Path R] {f : FrameId}

namespace Along

open Heap.Path

instance pure (a : α) : Along R f (Pure.pure a) := ⟨stay f⟩

instance throw (stop : EvalStop) : Along R f (MonadExcept.throw stop : Run α) := ⟨stay f⟩

instance fail (cause : RuntimeCause) (span : Option Span) : Along R f (fail cause span : Run α) :=
  ⟨stay f⟩

instance bind (x : Run α) (k : α → Run β) [hx : Along R f x] [hk : ∀ a, Along R f (k a)] :
    Along R f (x >>= k) where
  run h := by
    have hrun := hx.run h
    unfold after at hrun ⊢
    rw [bind_apply]
    cases hw : x h with
    | ok a h' =>
      rw [hw] at hrun
      exact trans hrun ((hk a).run h')
    | error stop h' =>
      rw [hw] at hrun
      exact hrun

instance ite (c : Prop) [Decidable c] (x y : Run α) [Along R f x] [Along R f y] :
    Along R f (if c then x else y) := by
  split <;> assumption

instance ofOperation (span : Option Span) (result : Except RuntimeCause Value) :
    Along R f (ofOperation span result) := by
  cases result <;> exact ⟨stay f⟩

instance get (name : String) (span : Option Span) : Along R f (get f name span) where
  run h := by
    have hget : (Run.get f name span).after h = h := by
      unfold after
      rw [get_apply]
      cases h.get? f name <;> rfl
    rw [hget]
    exact stay f h

instance declare (name : String) (value : Option Value) : Along R f (declare f name value) :=
  ⟨fun h => Heap.Path.declare f h name value⟩

instance assign (name : String) (value : Option Value) : Along R f (assign f name value) :=
  ⟨fun h => Heap.Path.assign f h name value⟩

instance loop (condition round : Run (Option Value)) [Along R f condition] [Along R f round]
    (last : Option Value) (n : Nat) : Along R f (loop condition round last n) := by
  induction n generalizing last with
  | zero => unfold Run.loop; infer_instance
  | succ n ih => unfold Run.loop; infer_instance

/-! ### The rules over what stands inside -/

section

variable {self : Task → FrameId → Run (Option Value)} [hself : ∀ task f, Along R f (self task f)]

instance statements (last : Option Value) (ns : List Node) :
    Along R f (statements self f last ns) := by
  induction ns generalizing last with
  | nil => unfold Run.statements; infer_instance
  | cons n ns ih => unfold Run.statements; infer_instance

instance block (n : Node) : Along R f (block self f n) := by
  unfold Run.block
  cases n.statements? <;> infer_instance

instance arguments (found : Array (Option Value)) (ns : List Node) :
    Along R f (arguments self f found ns) := by
  induction ns generalizing found with
  | nil => unfold Run.arguments; infer_instance
  | cons n ns ih => unfold Run.arguments; infer_instance

instance apply (span : Option Span) (callee : Node) (function : Option Value)
    (args : List (Option Value)) : Along R f (apply self span callee function args) := by
  unfold Run.apply
  split
  · next c =>
    by_cases hl : c.parameters.length ≠ args.length
    · rw [if_pos hl]
      infer_instance
    · rw [if_neg hl]
      exact ⟨fun h => Heap.Path.call ((hself (.body c.body) _).run _)⟩
  · infer_instance

instance expression (n : Node) : Along R f (expression self f n) := by
  cases n with
  | function span parameters body => exact ⟨fun h => Heap.Path.capture f h⟩
  | _ => unfold Run.expression; infer_instance

instance statement (rounds : Nat) (n : Node) : Along R f (statement self f rounds n) := by
  cases n <;> · unfold Run.statement; infer_instance

end

end Along

end Run

/-! ## Evaluations that stop on the way -/

namespace Run

variable {α : Type} {R : FrameId → Heap → Heap → Prop} [Heap.Path R] {f : FrameId}

/-- The evaluation, unless the heap is one to stop at. -/
def haltAt (stop : Heap → Bool) (x : Run α) : Run α := fun h =>
  if stop h then .error (.fault .endless) h else x h

instance Along.haltAt (stop : Heap → Bool) (x : Run α) [hx : Along R f x] :
    Along R f (haltAt stop x) where
  run h := by
    have hrun := hx.run h
    unfold after Run.haltAt at *
    cases stop h with
    | true => exact Heap.Path.stay (R := R) f h
    | false => exact hrun

end Run

/-- Evaluation that may stop in front of everything that is evaluated on the way. So it ends at
any heap that the evaluation comes by, if told to. -/
def evalUntil (stop : Task → FrameId → Heap → Bool) (rounds : Nat) :
    Nat → Task → FrameId → Run (Option Value)
  | depth + 1, .body n, f =>
    Run.haltAt (stop (.body n) f) (Run.block (evalUntil stop rounds depth) f n)
  | depth + 2, .statement n, f =>
    Run.haltAt (stop (.statement n) f) (Run.statement (evalUntil stop rounds depth) f rounds n)
  | depth + 2, .expression n, f =>
    Run.haltAt (stop (.expression n) f) (Run.expression (evalUntil stop rounds depth) f n)
  | _, _, _ => throw .tooDeep

/-- Evaluation that stops nowhere on the way is evaluation. -/
theorem evalUntil_never (rounds : Nat) : ∀ (depth : Nat) (task : Task) (f : FrameId),
    evalUntil (fun _ _ _ => false) rounds depth task f = evalTask rounds depth task f
  | depth + 1, .body n, f => by
    have hself := funext fun task => funext (evalUntil_never rounds depth task)
    rw [evalUntil, evalTask, hself]
    rfl
  | depth + 2, .statement n, f => by
    have hself := funext fun task => funext (evalUntil_never rounds depth task)
    rw [evalUntil, evalTask, hself]
    rfl
  | depth + 2, .expression n, f => by
    have hself := funext fun task => funext (evalUntil_never rounds depth task)
    rw [evalUntil, evalTask, hself]
    rfl
  | 0, .body _, _ | 0, .statement _, _ | 0, .expression _, _ | 1, .statement _, _
  | 1, .expression _, _ => rfl

/-- **What holds of the four changes holds of every evaluation**, however deep it nests, and at
whatever point it stops. -/
instance evalUntil_along {R : FrameId → Heap → Heap → Prop} [Heap.Path R]
    (stop : Task → FrameId → Heap → Bool) (rounds : Nat) :
    ∀ (depth : Nat) (task : Task) (f : FrameId), Run.Along R f (evalUntil stop rounds depth task f)
  | depth + 1, .body n, f => by
    have := fun task f => evalUntil_along (R := R) stop rounds depth task f
    unfold evalUntil
    infer_instance
  | depth + 2, .statement n, f => by
    have := fun task f => evalUntil_along (R := R) stop rounds depth task f
    unfold evalUntil
    infer_instance
  | depth + 2, .expression n, f => by
    have := fun task f => evalUntil_along (R := R) stop rounds depth task f
    unfold evalUntil
    infer_instance
  | 0, _, f | 1, .statement _, f | 1, .expression _, f => ⟨fun h => Heap.Path.stay f h⟩

instance evalTask_along {R : FrameId → Heap → Heap → Prop} [Heap.Path R] (rounds depth : Nat)
    (task : Task) (f : FrameId) : Run.Along R f (evalTask rounds depth task f) := by
  rw [← evalUntil_never]
  infer_instance

instance evalNode_along {R : FrameId → Heap → Heap → Prop} [Heap.Path R] (rounds depth : Nat)
    (n : Node) (f : FrameId) : Run.Along R f (evalNode rounds depth n f) := by
  cases n <;> · unfold evalNode; infer_instance

end Ember

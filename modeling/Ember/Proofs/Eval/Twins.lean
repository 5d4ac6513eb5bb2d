import Ember.Proofs.Eval.Operators
import Ember.Proofs.Eval.Path
import Ember.Proofs.Heap.Matching
import Ember.Proofs.Node.Spans

/-!
# Evaluations that run side by side

Two evaluations are twins when, from any two heaps that a matching joins, they come to heaps
that it joins with some more pairs, and to related results, or end early for the same reason.
A matching is all that they share: the heaps may hold anything beside what it pairs.

Trees that are alike up to their spans are evaluated by twins (`evalTask_twins`), for a span
only ever goes into a failure or into the body of a function.
-/

namespace Ember

variable {k : Option Span → Option Span}

/-- The reason with its span replaced. -/
def EvalStop.mapSpan (k : Option Span → Option Span) : EvalStop → EvalStop
  | .failed cause span => .failed cause (k span)
  | .tooDeep => .tooDeep
  | .fault reason => .fault reason

/-- The same is to be evaluated, up to spans. -/
inductive Task.Alike (k : Option Span → Option Span) : Task → Task → Prop
  | expression {n n' : Node} : n.Alike k n' → Task.Alike k (.expression n) (.expression n')
  | statement {n n' : Node} : n.Alike k n' → Task.Alike k (.statement n) (.statement n')
  | body {n n' : Node} : n.Alike k n' → Task.Alike k (.body n) (.body n')

/-- Lists with the same keys. -/
theorem forall₂_zip {α β γ : Type} {S : β → γ → Prop} (keys : List α) {l : List β} {l' : List γ}
    (hl : List.Forall₂ S l l') :
    List.Forall₂ (fun e e' => e.1 = e'.1 ∧ S e.2 e'.2) (keys.zip l) (keys.zip l') := by
  induction hl generalizing keys with
  | nil => simp
  | cons hab _ ih =>
    cases keys with
    | nil => exact .nil
    | cons key keys => exact .cons ⟨rfl, hab⟩ (ih keys)

namespace Run

variable {α α' β β' : Type}

/-- How results are related, given what is paired. -/
abbrev ResultRel (α α' : Type) := Matching → α → α' → Prop

/-- Both evaluations came to a result, and the results are related; or both ended early, for
the same reason. -/
inductive Ends (k : Option Span → Option Span) (Q : ResultRel α α') (m : Matching) (h h' : Heap) :
    EStateM.Result EvalStop Heap α → EStateM.Result EvalStop Heap α' → Prop
  | ok {m' : Matching} {a : α} {a' : α'} {g g' : Heap} :
      m.Grows (Node.Alike k) h h' m' g g' → Q m' a a' → Ends k Q m h h' (.ok a g) (.ok a' g')
  | error {m' : Matching} {stop stop' : EvalStop} {g g' : Heap} :
      m.Grows (Node.Alike k) h h' m' g g' → stop.mapSpan k = stop'.mapSpan k →
      Ends k Q m h h' (.error stop g) (.error stop' g')

/-- From heaps that the matching joins, both evaluations do the same. -/
def Twins (k : Option Span → Option Span) (Q : ResultRel α α') (m : Matching) (x : Run α)
    (x' : Run α') : Prop :=
  ∀ h h' : Heap, m.Joins (Node.Alike k) h h' → m.Fits h h' → Ends k Q m h h' (x h) (x' h')

/-- The same value, or none, on both sides. -/
abbrev ValueRel (k : Option Span → Option Span) : ResultRel (Option Value) (Option Value) :=
  fun m => m.Results (Node.Alike k)

/-- The same values on both sides. -/
abbrev ValuesRel (k : Option Span → Option Span) :
    ResultRel (Array (Option Value)) (Array (Option Value)) :=
  fun m vs vs' => List.Forall₂ (m.Results (Node.Alike k)) vs.toList vs'.toList

variable {Q : ResultRel α α'} {R : ResultRel β β'} {m : Matching} {f f' : FrameId}
  {s s' : Option Span} {v v' : Option Value}

/-- What was paired before may be forgotten. -/
theorem Ends.of_grows {m' : Matching} {h h' g g' : Heap} {r : EStateM.Result EvalStop Heap α}
    {r' : EStateM.Result EvalStop Heap α'} (hr : Ends k Q m' g g' r r')
    (hg : m.Grows (Node.Alike k) h h' m' g g') : Ends k Q m h h' r r' := by
  cases hr with
  | ok hgrows ha => exact .ok (hg.trans hgrows) ha
  | error hgrows hs => exact .error (hg.trans hgrows) hs

namespace Twins

theorem pure {a : α} {a' : α'} (ha : Q m a a') : Twins k Q m (Pure.pure a) (Pure.pure a') :=
  fun _ _ hm hx => .ok (.refl hm hx) ha

/-- Twins stop for the same reason, up to the places in it. -/
theorem throw {stop stop' : EvalStop} (hs : stop.mapSpan k = stop'.mapSpan k) :
    Twins k Q m (MonadExcept.throw stop) (MonadExcept.throw stop') :=
  fun _ _ hm hx => .error (.refl hm hx) hs

theorem fault (stop : Fault) :
    Twins k Q m (MonadExcept.throw (.fault stop)) (MonadExcept.throw (.fault stop)) :=
  .throw rfl

/-- Twins fail for the same reason, at places that correspond. -/
theorem fail (cause : RuntimeCause) (hs : k s = k s') :
    Twins k Q m (Run.fail cause s) (Run.fail cause s') :=
  .throw (by rw [EvalStop.mapSpan, EvalStop.mapSpan, hs])

/-- What follows may rely on all that is paired by then. -/
theorem bind {x : Run α} {x' : Run α'} {y : α → Run β} {y' : α' → Run β'} (hx : Twins k Q m x x')
    (hy : ∀ (m' : Matching) (a : α) (a' : α'), m.Extends m' → Q m' a a' →
      Twins k R m' (y a) (y' a')) :
    Twins k R m (x >>= y) (x' >>= y') := by
  intro h h' hm hf
  have hrun := hx h h' hm hf
  rw [bind_apply, bind_apply]
  generalize x h = r at hrun ⊢
  generalize x' h' = r' at hrun ⊢
  cases hrun with
  | error hgrows hs => exact .error hgrows hs
  | ok hgrows ha =>
    exact (hy _ _ _ hgrows.keeps ha _ _ hgrows.joins hgrows.fits).of_grows hgrows

/-- Twins choose the same side. -/
theorem ite {c c' : Prop} [Decidable c] [Decidable c'] (hc : c ↔ c') {x y : Run α}
    {x' y' : Run α'} (hx : Twins k Q m x x') (hy : Twins k Q m y y') :
    Twins k Q m (if c then x else y) (if c' then x' else y') := by
  by_cases h : c
  · rwa [if_pos h, if_pos (hc.1 h)]
  · rwa [if_neg h, if_neg fun h' => h (hc.2 h')]

/-- An operator that gives the same on both sides. -/
theorem ofOperation (hs : k s = k s') {result : Except RuntimeCause Value}
    (hplain : ∀ a, result = .ok a → a.Plain) :
    Twins k (ValueRel k) m (Run.ofOperation s result) (Run.ofOperation s' result) := by
  cases result with
  | error cause => exact .fail cause hs
  | ok a =>
    cases a with
    | integer n => exact .pure (.some (.integer n))
    | boolean b => exact .pure (.some (.boolean b))
    | function c => cases hplain _ rfl

/-- A name has matched values in paired frames, or is unbound in both. -/
theorem get (hf : m.frames f f') (x : String) (hs : k s = k s') :
    Twins k (ValueRel k) m (Run.get f x s) (Run.get f' x s') := by
  intro h h' hm hx
  have hget := hm.get? hf x
  rw [get_apply, get_apply]
  generalize h.get? f x = r at hget ⊢
  generalize h'.get? f' x = r' at hget ⊢
  cases hget with
  | none => exact .error (.refl hm hx) (by rw [EvalStop.mapSpan, EvalStop.mapSpan, hs])
  | some hv => exact .ok (.refl hm hx) hv

/-- A name is declared in paired frames with matched values. -/
theorem declare (hf : m.frames f f') (x : String) (hv : ValueRel k m v v') :
    Twins k (ValueRel k) m (Run.declare f x v) (Run.declare f' x v') :=
  fun _ _ hm hx =>
    have hgrows := hm.declare hx hf x hv
    .ok hgrows (hv.mono hgrows.keeps)

/-- A name is assigned to in paired frames with matched values. -/
theorem assign (hf : m.frames f f') (x : String) (hv : ValueRel k m v v') :
    Twins k (ValueRel k) m (Run.assign f x v) (Run.assign f' x v') := by
  intro h h' hm hx
  obtain ⟨m', hgrows⟩ := hm.assign hx hf x hv
  exact .ok hgrows (hv.mono hgrows.keeps)

/-- Snapshots of paired frames are paired. -/
theorem capture (hf : m.frames f f') :
    Twins k Matching.frames m (modifyGet (·.capture f)) (modifyGet (·.capture f')) :=
  fun _ _ hm hx => .ok (hm.capture hx hf) (m.withFrame_new ..)

/-- Calls of functions with paired frames run in new frames that are paired. -/
theorem enter (hf : m.frames f f') (name name' : String)
    {bs bs' : List (String × Option Value)}
    (hbs : List.Forall₂ (fun b b' => b.1 = b'.1 ∧ m.Results (Node.Alike k) b.2 b'.2) bs bs') :
    Twins k Matching.frames m (modifyGet (·.enter f name bs))
      (modifyGet (·.enter f' name' bs')) := by
  intro h h' hm hx
  have henclose := hm.enclose hx hf name name'
  have hin := m.withFrame_new h.frames.size h'.frames.size
  have hbs' := hbs.imp fun _ _ hb => And.imp_right (Matching.Results.mono · henclose.keeps) hb
  obtain ⟨m', hgrows⟩ := henclose.joins.declareAll henclose.fits hin hbs'
  exact .ok (henclose.trans hgrows) (hgrows.keeps.frames hin)

/-- Twins may be run again and again, with ever more pairs. -/
theorem loop {condition condition' round round' : Run (Option Value)}
    (hc : ∀ m', m.Extends m' → Twins k (ValueRel k) m' condition condition')
    (hr : ∀ m', m.Extends m' → Twins k (ValueRel k) m' round round') (hv : ValueRel k m v v')
    (n : Nat) :
    Twins k (ValueRel k) m (Run.loop condition round v n) (Run.loop condition' round' v' n) := by
  induction n generalizing m v v' with
  | zero => exact .fault .endless
  | succ n ih =>
    rw [Run.loop, Run.loop]
    refine (hc m (.refl m)).bind fun m₁ c c' h₁ hcc => ?_
    refine .ite (by rw [hcc.holds]) ?_ (.pure (hv.mono h₁))
    refine (hr m₁ h₁).bind fun m₂ w w' h₂ hw => ?_
    have h₁₂ := h₁.trans h₂
    exact ih (fun m' h' => hc m' (h₁₂.trans h')) (fun m' h' => hr m' (h₁₂.trans h')) hw

end Twins

/-! ## The rules over what stands inside -/

section

variable {self self' : Task → FrameId → Run (Option Value)}
  (hself : ∀ (m : Matching) (task task' : Task) (f f' : FrameId), task.Alike k task' →
    m.frames f f' → Twins k (ValueRel k) m (self task f) (self' task' f'))

include hself

/-- Statements that are alike are twins one after the other. -/
theorem twins_statements (hf : m.frames f f') (hv : ValueRel k m v v') {ns ns' : List Node}
    (hns : List.Forall₂ (Node.Alike k) ns ns') :
    Twins k (ValueRel k) m (statements self f v ns) (statements self' f' v' ns') := by
  induction hns generalizing m v v' with
  | nil => exact .pure hv
  | cons hn _ ih =>
    rw [statements, statements]
    exact (hself m _ _ f f' (.statement hn) hf).bind fun m' w w' he hw => ih (he.frames hf) hw

/-- Blocks that are alike are twins. -/
theorem twins_block (hf : m.frames f f') {n n' : Node} (hn : n.Alike k n') :
    Twins k (ValueRel k) m (block self f n) (block self' f' n') := by
  unfold block
  have hlist := hn.statements?
  generalize n.statements? = r at hlist ⊢
  generalize n'.statements? = r' at hlist ⊢
  cases hlist with
  | some hns => exact twins_statements hself hf .none hns
  | none =>
    rw [hn.kindName]
    exact .fault _

/-- Arguments that are alike have values that are matched one by one. -/
theorem twins_arguments (hf : m.frames f f') {found found' : Array (Option Value)}
    (hfound : ValuesRel k m found found') {ns ns' : List Node}
    (hns : List.Forall₂ (Node.Alike k) ns ns') :
    Twins k (ValuesRel k) m (arguments self f found ns) (arguments self' f' found' ns') := by
  induction hns generalizing m found found' with
  | nil => exact .pure hfound
  | cons hn _ ih =>
    rw [arguments, arguments]
    refine (hself m _ _ f f' (.expression hn) hf).bind fun m' w w' he hw => ih (he.frames hf) ?_
    rw [ValuesRel, Array.toList_push, Array.toList_push]
    exact List.rel_append (hfound.imp fun _ _ hv => hv.mono he) (.cons hw .nil)

/-- Matched functions are called with matched arguments as twins. -/
theorem twins_apply (hs : k s = k s') (callee callee' : Node) (hv : ValueRel k m v v')
    {args args' : List (Option Value)}
    (hargs : List.Forall₂ (m.Results (Node.Alike k)) args args') :
    Twins k (ValueRel k) m (apply self s callee v args) (apply self' s' callee' v' args') := by
  have hother : Twins k (ValueRel k) m (Run.fail (.notCallable (typeNameOf v)) s)
      (Run.fail (.notCallable (typeNameOf v')) s') := by
    rw [hv.typeName]
    exact .fail _ hs
  cases hv with
  | none => exact hother
  | some hv =>
    cases hv with
    | integer n => exact hother
    | boolean b => exact hother
    | function ps hb hg =>
      unfold apply
      refine .ite (by rw [hargs.length_eq]) ?_ ?_
      · rw [hargs.length_eq]
        exact .fail _ hs
      · refine (Twins.enter hg _ _ (forall₂_zip ps hargs)).bind fun m' i i' _ hi => ?_
        exact hself m' _ _ i i' (.body hb) hi

/-- Expressions that are alike are twins, if what they evaluate is. -/
theorem twins_expression (hf : m.frames f f') {n n' : Node} (hn : n.Alike k n') :
    Twins k (ValueRel k) m (expression self f n) (expression self' f' n') := by
  cases hn.roots with
  | identifier name hs => exact .get hf name hs
  | integer value hs => exact .pure (.some (.integer value))
  | unary operator hs ha =>
    rw [expression, expression]
    refine (hself m _ _ f f' (.expression ha) hf).bind fun m₁ v v' h₁ hv => ?_
    rw [hv.unaryOperation]
    exact .ofOperation hs fun _ => unaryOperation_plain
  | binary operator hs ha hb =>
    rw [expression, expression]
    refine (hself m _ _ f f' (.expression ha) hf).bind fun m₁ v v' h₁ hv => ?_
    refine (hself m₁ _ _ f f' (.expression hb) (h₁.frames hf)).bind fun m₂ w w' h₂ hw => ?_
    -- whether two functions are the same depends on what is paired by now
    intro h h' hm hx
    rw [hm.binaryOperation (fun _ _ => Node.Alike.erase_eq) operator (hv.mono h₂) hw]
    exact Twins.ofOperation hs (fun _ => binaryOperation_plain) h h' hm hx
  | conditional hs hc ha hb =>
    rw [expression, expression]
    refine (hself m _ _ f f' (.expression hc) hf).bind fun m₁ v v' h₁ hv => ?_
    have hf₁ := h₁.frames hf
    refine .ite (by rw [hv.holds]) (twins_block hself hf₁ ha) ?_
    exact .ite (by rw [hb.isMissing]) (.pure .none) (twins_block hself hf₁ hb)
  | function hs hps hb =>
    rw [expression, expression]
    refine (Twins.capture hf).bind fun m₁ i i' h₁ hi => ?_
    rw [Node.texts_of_mapSpan hps]
    exact .pure (.some (.function _ hb hi))
  | call hs hc hargs =>
    rw [expression, expression]
    refine (hself m _ _ f f' (.expression hc) hf).bind fun m₁ v v' h₁ hv => ?_
    refine (twins_arguments hself (h₁.frames hf) .nil hargs).bind fun m₂ vs vs' h₂ hvs => ?_
    exact twins_apply hself hs _ _ (hv.mono h₂) hvs
  | _ => exact .fault _

/-- Statements that are alike are twins, if what they evaluate is. -/
theorem twins_statement (rounds : Nat) (hf : m.frames f f') {n n' : Node} (hn : n.Alike k n') :
    Twins k (ValueRel k) m (statement self f rounds n) (statement self' f' rounds n') := by
  cases hn.roots with
  | expression hs he => exact hself m _ _ f f' (.expression he) hf
  | declaration hs hx hv =>
    rw [statement, statement, Node.text_of_mapSpan hx]
    exact (hself m _ _ f f' (.expression hv) hf).bind fun m₁ v v' h₁ hv =>
      .declare (h₁.frames hf) _ hv
  | assignment hs hx hv =>
    rw [statement, statement, Node.text_of_mapSpan hx]
    exact (hself m _ _ f f' (.expression hv) hf).bind fun m₁ v v' h₁ hv =>
      .assign (h₁.frames hf) _ hv
  | block hs hns => exact twins_statements hself hf .none hns
  | whileLoop hs hc hb =>
    exact .loop (fun m' he => hself m' _ _ f f' (.expression hc) (he.frames hf))
      (fun m' he => twins_block hself (he.frames hf) hb) .none rounds
  | forLoop hs hi hc hp hb =>
    rw [statement, statement]
    refine (hself m _ _ f f' (.statement hi) hf).bind fun m₁ v v' h₁ hv => ?_
    have hf₁ := h₁.frames hf
    refine .loop (fun m' he => hself m' _ _ f f' (.expression hc) (he.frames hf₁))
      (fun m' he => ?_) .none rounds
    refine (twins_block hself (he.frames hf₁) hb).bind fun m₂ w w' h₂ hw => ?_
    refine (hself m₂ _ _ f f' (.statement hp) (h₂.frames (he.frames hf₁))).bind
      fun m₃ _ _ h₃ _ => ?_
    exact .pure (hw.mono h₃)
  | _ => exact .fault _

end

end Run

open Run

/-- **What is alike up to its spans is evaluated by twins.** -/
theorem evalTask_twins (rounds depth : Nat) (m : Matching) (task task' : Task) (f f' : FrameId)
    (ht : task.Alike k task') (hf : m.frames f f') :
    Twins k (ValueRel k) m (evalTask rounds depth task f) (evalTask rounds depth task' f') := by
  -- a body stands one level further in, the other two stand two levels further in
  induction depth using Nat.strongRecOn generalizing m task task' f f' with
  | ind depth ih =>
    cases ht with
    | body hn =>
      rcases depth with _ | depth
      · exact .throw rfl
      · exact twins_block (ih depth (by omega)) hf hn
    | statement hn =>
      rcases depth with _ | _ | depth
      · exact .throw rfl
      · exact .throw rfl
      · exact twins_statement (ih depth (by omega)) rounds hf hn
    | expression hn =>
      rcases depth with _ | _ | depth
      · exact .throw rfl
      · exact .throw rfl
      · exact twins_expression (ih depth (by omega)) hf hn

variable {m : Matching} {f f' : FrameId}

/-- Programs with alike statements are evaluated by twins. -/
theorem program_twins (rounds depth : Nat) (hf : m.frames f f') (s s' : Option Span)
    {ns ns' : List Node} (hns : List.Forall₂ (Node.Alike k) ns ns') :
    Twins k (ValueRel k) m (evalNode rounds depth (.program s ns) f)
      (evalNode rounds depth (.program s' ns') f') :=
  twins_statements (evalTask_twins rounds depth) hf .none hns

end Ember

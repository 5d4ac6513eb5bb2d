import Ember.Proofs.Eval.Flat
import Ember.Proofs.Eval.Twins
import Ember.Proofs.Grammar.Whole

/-!
# Declarations as assignments

`Node.assigned k` turns every declaration of a tree into an assignment and replaces the spans.
Without cells that changes nothing but the spans of failures (`Whole.flat_assigned`), provided
that the tree is whole: a declaration in the place of an expression is reported as one.
-/

namespace Ember

section

variable (k : Option Span → Option Span)

namespace Node

mutual

/-- The tree with every declaration turned into an assignment, and every span replaced. -/
def assigned : Node → Node
  | missing => missing
  | identifier s name => identifier (k s) name
  | integer s value => integer (k s) value
  | unary s operator operand => unary (k s) operator operand.assigned
  | binary s left operator right => binary (k s) left.assigned operator right.assigned
  | conditional s condition consequence alternative =>
    conditional (k s) condition.assigned consequence.assigned alternative.assigned
  | function s parameters body => function (k s) (parameters.map (Name.mapSpan k)) body.assigned
  | call s callee arguments => call (k s) callee.assigned (assignedAll arguments)
  | declaration s name value | assignment s name value =>
    assignment (k s) (name.mapSpan k) value.assigned
  | expression s e => expression (k s) e.assigned
  | block s statements => block (k s) (assignedAll statements)
  | whileLoop s condition body => whileLoop (k s) condition.assigned body.assigned
  | forLoop s init condition post body =>
    forLoop (k s) init.assigned condition.assigned post.assigned body.assigned
  | program s statements => program (k s) (assignedAll statements)

/-- The trees of a list with every declaration turned into an assignment. -/
def assignedAll : List Node → List Node
  | [] => []
  | n :: ns => n.assigned :: assignedAll ns

end

@[simp]
theorem assignedAll_eq_map (ns : List Node) : assignedAll k ns = ns.map (assigned k) := by
  induction ns with
  | nil => rfl
  | cons n ns ih => rw [assignedAll, ih, List.map_cons]

theorem isMissing_assigned (n : Node) : (n.assigned k).isMissing = n.isMissing := by
  cases n <;> rfl

end Node

namespace Flat

variable {α β : Type} {x : Flat α} {span : Option Span}

/-- The result with the span of a failure replaced. -/
def mapResult :
    EStateM.Result EvalStop Bindings α → EStateM.Result EvalStop Bindings α
  | .ok a b => .ok a b
  | .error stop b => .error (stop.mapSpan k) b

/-- The evaluation with the span of its failure replaced. -/
def mapSpan (x : Flat α) : Flat α :=
  fun b => mapResult k (x b)

theorem mapSpan_bind (x : Flat α) (f : α → Flat β) :
    mapSpan k (x >>= f) = mapSpan k x >>= fun a => mapSpan k (f a) := by
  funext b
  rw [mapSpan, bind_apply, bind_apply, mapSpan]
  cases x b <;> rfl

theorem mapSpan_ite (c : Prop) [Decidable c] (x y : Flat α) :
    mapSpan k (if c then x else y) = if c then mapSpan k x else mapSpan k y := by
  split <;> rfl

theorem mapSpan_ofOperation (span : Option Span) (result : Except RuntimeCause Value) :
    mapSpan k (ofOperation span result) = ofOperation (k span) result := by
  cases result <;> rfl

theorem mapSpan_get (name : String) (span : Option Span) :
    mapSpan k (get name span) = get name (k span) := by
  funext b
  rw [mapSpan, get_apply, get_apply]
  cases b.get? name <;> rfl

theorem mapSpan_loop (condition round : Flat (Option Value)) (last : Option Value) (n : Nat) :
    mapSpan k (loop condition round last n) =
      loop (mapSpan k condition) (mapSpan k round) last n := by
  induction n generalizing last with
  | zero => rfl
  | succ n ih =>
    rw [loop, loop, mapSpan_bind]
    refine congrArg (mapSpan k condition >>= ·) (funext fun c => ?_)
    rw [mapSpan_ite, mapSpan_bind]
    simp only [ih]
    rfl

end Flat

/-- The evaluation of what stands in a place. -/
def Role.flat (rounds : Nat) : Role → Node → Flat (Option Value)
  | .expression => Flat.expression rounds
  | .statement | .clause => Flat.statement rounds
  | .block => Flat.block rounds

open Flat

variable {rounds : Nat}

theorem flat_statements_assigned {ns : List Node}
    (hns : ∀ n ∈ ns, statement rounds (n.assigned k) = mapSpan k (statement rounds n))
    (last : Option Value) :
    statements rounds last (ns.map (Node.assigned k)) =
      mapSpan k (statements rounds last ns) := by
  induction ns generalizing last with
  | nil => rfl
  | cons n ns ih =>
    obtain ⟨hn, hns⟩ := List.forall_mem_cons.1 hns
    rw [List.map_cons, statements, statements, mapSpan_bind, hn]
    exact congrArg (mapSpan k (statement rounds n) >>= ·) (funext fun v => ih hns v)

theorem flat_arguments_assigned {ns : List Node}
    (hns : ∀ n ∈ ns, expression rounds (n.assigned k) = mapSpan k (expression rounds n)) :
    arguments rounds (ns.map (Node.assigned k)) = mapSpan k (arguments rounds ns) := by
  induction ns with
  | nil => rfl
  | cons n ns ih =>
    obtain ⟨hn, hns⟩ := List.forall_mem_cons.1 hns
    rw [List.map_cons, arguments, arguments, mapSpan_bind, hn, ih hns]

/-- **Without cells a declaration is an assignment.** -/
theorem Whole.flat_assigned {r : Role} {n : Node} (hn : Whole r n) :
    r.flat rounds (n.assigned k) = mapSpan k (r.flat rounds n) := by
  induction hn with
  | identifier => exact (mapSpan_get ..).symm
  | integer => rfl
  | unary _ _ ih =>
    simp only [Role.flat, Node.assigned, expression, mapSpan_bind, mapSpan_ofOperation] at ih ⊢
    rw [ih]
  | binary _ _ _ iha ihb =>
    simp only [Role.flat, Node.assigned, expression, mapSpan_bind, mapSpan_ofOperation] at iha ihb ⊢
    rw [iha, ihb]
  | ifOnly _ _ ihc iha =>
    simp only [Role.flat, Node.assigned, expression, mapSpan_bind, mapSpan_ite] at ihc iha ⊢
    rw [ihc, iha]
    rfl
  | ifElse _ _ _ ihc iha ihb =>
    simp only [Role.flat, Node.assigned, expression, mapSpan_bind, mapSpan_ite,
      Node.isMissing_assigned] at ihc iha ihb ⊢
    rw [ihc, iha, ihb]
    rfl
  | function => rfl
  | call _ _ ihc iha =>
    simp only [Role.flat, Node.assigned, Node.assignedAll_eq_map, expression, mapSpan_bind]
      at ihc iha ⊢
    rw [ihc, flat_arguments_assigned k iha]
    rfl
  | block _ ih =>
    simp only [Role.flat, Node.assigned, Node.assignedAll_eq_map, Flat.block] at ih ⊢
    exact flat_statements_assigned k ih none
  | declaration _ ih =>
    simp only [Role.flat, Node.assigned, statement, mapSpan_bind] at ih ⊢
    rw [ih]
    rfl
  | assignment _ ih =>
    simp only [Role.flat, Node.assigned, statement, mapSpan_bind] at ih ⊢
    rw [ih]
    rfl
  | clause _ ih => exact ih
  | expressionStatement _ ih =>
    simp only [Role.flat, Node.assigned, statement] at ih ⊢
    exact ih
  | whileLoop _ _ ihc ihb =>
    simp only [Role.flat, Node.assigned, statement, mapSpan_loop] at ihc ihb ⊢
    rw [ihc, ihb]
  | forLoop _ _ _ _ ihi ihc ihp ihb =>
    simp only [Role.flat, Node.assigned, statement, mapSpan_bind, mapSpan_loop] at ihi ihc ihp ihb ⊢
    rw [ihi, ihc, ihp, ihb]
    rfl

end

end Ember

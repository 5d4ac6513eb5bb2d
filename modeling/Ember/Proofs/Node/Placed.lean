import Ember.Node.Dump

/-!
# Where the nodes of a tree stand

`Node.Placed P` says that all spans of a tree have the property `P`: those of its nodes and
those of the names that it binds.
-/

namespace Ember

variable {P Q : Span → Prop}

/-- The span, if there is one, has the property. -/
abbrev SpanPlaced (P : Span → Prop) (s : Option Span) : Prop :=
  ∀ span ∈ s, P span

/-- The span of the name has the property. -/
def Name.Placed (P : Span → Prop) (x : Name) : Prop :=
  SpanPlaced P x.span

namespace Node

/-- All spans of the tree have the property. -/
def Placed (P : Span → Prop) (n : Node) : Prop :=
  ∀ entry ∈ n.spans, SpanPlaced P entry.2

/-- What places all spans may be weakened. -/
theorem Placed.mono {n : Node} (h : n.Placed P) (hPQ : ∀ s, P s → Q s) : n.Placed Q :=
  fun entry hentry s hs => hPQ s (h entry hentry s hs)

/-- The spans of trees are placed if those of each tree are. -/
theorem placed_spansOfAll {ns : List Node} :
    (∀ entry ∈ spansOfAll ns, SpanPlaced P entry.2) ↔ ∀ n ∈ ns, n.Placed P := by
  induction ns with
  | nil => exact ⟨nofun, nofun⟩
  | cons n ns ih =>
    show (∀ entry ∈ n.spans ++ spansOfAll ns, SpanPlaced P entry.2) ↔ _
    rw [List.forall_mem_append, List.forall_mem_cons, ih]
    rfl

variable {s : Option Span} {n a b c d : Node} {ns : List Node} {x : Name} {xs : List Name}

theorem placed_missing : missing.Placed P := nofun

theorem placed_identifier {name : String} : (identifier s name).Placed P ↔ SpanPlaced P s :=
  List.forall_mem_singleton

theorem placed_integer {value : Int} : (integer s value).Placed P ↔ SpanPlaced P s :=
  List.forall_mem_singleton

theorem placed_unary {operator : String} :
    (unary s operator a).Placed P ↔ SpanPlaced P s ∧ a.Placed P :=
  List.forall_mem_cons

theorem placed_binary {operator : String} :
    (binary s a operator b).Placed P ↔ SpanPlaced P s ∧ a.Placed P ∧ b.Placed P := by
  show (∀ entry ∈ (_, s) :: (a.spans ++ b.spans), SpanPlaced P entry.2) ↔ _
  rw [List.forall_mem_cons, List.forall_mem_append]
  rfl

theorem placed_conditional :
    (conditional s a b c).Placed P ↔
      SpanPlaced P s ∧ a.Placed P ∧ b.Placed P ∧ c.Placed P := by
  show (∀ entry ∈ (_, s) :: (a.spans ++ (b.spans ++ c.spans)), SpanPlaced P entry.2) ↔ _
  rw [List.forall_mem_cons, List.forall_mem_append, List.forall_mem_append]
  rfl

/-- A function is placed with its span, the names of its parameters and its body. -/
theorem placed_function :
    (function s xs b).Placed P ↔ SpanPlaced P s ∧ (∀ x ∈ xs, x.Placed P) ∧ b.Placed P := by
  show (∀ entry ∈ (_, s) :: (xs.map nameSpan ++ b.spans), SpanPlaced P entry.2) ↔ _
  rw [List.forall_mem_cons, List.forall_mem_append, List.forall_mem_map]
  rfl

/-- A call is placed with its span, its callee and its arguments. -/
theorem placed_call :
    (call s a ns).Placed P ↔ SpanPlaced P s ∧ a.Placed P ∧ ∀ n ∈ ns, n.Placed P := by
  show (∀ entry ∈ (_, s) :: (a.spans ++ spansOfAll ns), SpanPlaced P entry.2) ↔ _
  rw [List.forall_mem_cons, List.forall_mem_append, placed_spansOfAll]
  rfl

/-- A declaration is placed with its span, its name and its value. -/
theorem placed_declaration :
    (declaration s x a).Placed P ↔ SpanPlaced P s ∧ x.Placed P ∧ a.Placed P := by
  show (∀ entry ∈ (_, s) :: nameSpan x :: a.spans, SpanPlaced P entry.2) ↔ _
  rw [List.forall_mem_cons, List.forall_mem_cons]
  rfl

theorem placed_assignment :
    (assignment s x a).Placed P ↔ SpanPlaced P s ∧ x.Placed P ∧ a.Placed P := by
  show (∀ entry ∈ (_, s) :: nameSpan x :: a.spans, SpanPlaced P entry.2) ↔ _
  rw [List.forall_mem_cons, List.forall_mem_cons]
  rfl

theorem placed_expression : (expression s a).Placed P ↔ SpanPlaced P s ∧ a.Placed P :=
  List.forall_mem_cons

/-- A block is placed with its span and its statements. -/
theorem placed_block : (block s ns).Placed P ↔ SpanPlaced P s ∧ ∀ n ∈ ns, n.Placed P := by
  show (∀ entry ∈ (_, s) :: spansOfAll ns, SpanPlaced P entry.2) ↔ _
  rw [List.forall_mem_cons, placed_spansOfAll]

theorem placed_whileLoop :
    (whileLoop s a b).Placed P ↔ SpanPlaced P s ∧ a.Placed P ∧ b.Placed P := by
  show (∀ entry ∈ (_, s) :: (a.spans ++ b.spans), SpanPlaced P entry.2) ↔ _
  rw [List.forall_mem_cons, List.forall_mem_append]
  rfl

theorem placed_forLoop :
    (forLoop s a b c d).Placed P ↔
      SpanPlaced P s ∧ a.Placed P ∧ b.Placed P ∧ c.Placed P ∧ d.Placed P := by
  show (∀ entry ∈ (_, s) :: (a.spans ++ (b.spans ++ (c.spans ++ d.spans))),
    SpanPlaced P entry.2) ↔ _
  rw [List.forall_mem_cons, List.forall_mem_append, List.forall_mem_append,
    List.forall_mem_append]
  rfl

theorem placed_program : (program s ns).Placed P ↔ SpanPlaced P s ∧ ∀ n ∈ ns, n.Placed P := by
  show (∀ entry ∈ (_, s) :: spansOfAll ns, SpanPlaced P entry.2) ↔ _
  rw [List.forall_mem_cons, placed_spansOfAll]

end Node

end Ember

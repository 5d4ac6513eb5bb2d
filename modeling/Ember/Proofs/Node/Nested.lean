import Ember.Proofs.Node.Placed
import Ember.Proofs.Token.Exact

/-!
# How the nodes of a tree stand in a source

A node stands in a source from the start of one token to the end of another. What is inside it
stands inside that stretch, part after part (`Node.StandsAt`), and a tree is nested when all its
nodes stand so (`Node.Nested`).

`Node.Fits` also says between which two offsets a nested tree lies, and `Node.Stacked` that trees
lie so one behind the other. A node over stacked trees fits wherever its span does
(`Node.Stacked.fits`), so trees that are built from left to right nest.
-/

namespace Ember

/-! ## Spans -/

/-- The span starts where one of the tokens starts and ends where one ends. -/
def Between (ts : List Token) (s : Span) : Prop :=
  ∃ t ∈ ts, ∃ u ∈ ts, s = ⟨t.span.start, u.span.stop⟩

/-- The span lies inside the other one. -/
def Span.Within (inner outer : Span) : Prop :=
  outer.start.offset ≤ inner.start.offset ∧ inner.stop.offset ≤ outer.stop.offset

/-- The characters that a span covers. -/
def Source.covered (s : Source) (span : Span) : List Char :=
  stretch s.chars span.start.offset span.stop.offset

/-! ## Nodes of a tree -/

/-- A name as a node of its own. -/
def Name.toNode (x : Name) : Node :=
  .identifier x.span x.text

namespace Node

/-- What stands directly inside a node, in the order of its parts. A part that is not there is
`missing`. -/
def children : Node → List Node
  | missing | identifier .. | integer .. => []
  | unary _ _ a => [a]
  | binary _ a _ b => [a, b]
  | conditional _ c a b => [c, a, b]
  | function _ xs b => xs.map Name.toNode ++ [b]
  | call _ c as => c :: as
  | declaration _ x v | assignment _ x v => [x.toNode, v]
  | expression _ e => [e]
  | block _ ns | program _ ns => ns
  | whileLoop _ c b => [c, b]
  | forLoop _ i c p b => [i, c, p, b]

/-- The nodes of a tree: its root, and those inside. -/
inductive Contains : Node → Node → Prop
  | root (n : Node) : Contains n n
  | inside {n m k : Node} : m ∈ n.children → Contains m k → Contains n k

/-- The first node ends before the second one starts. -/
def Precedes (a b : Node) : Prop :=
  ∀ s ∈ a.span?, ∀ s' ∈ b.span?, s.stop.offset ≤ s'.start.offset

/-- A name is what its span covers, and a number what the digits there denote. -/
def SpelledAs (cs : List Char) : Node → Prop
  | identifier _ name => cs = name.toList
  | integer _ value =>
    cs ≠ [] ∧ (∀ c ∈ cs, Text.isDigit c = true) ∧ value = (Nat.ofDigitChars 10 cs 0 : Nat)
  | _ => True

/-- The node has this span, which is one between tokens of the source. What is inside the node
stands inside the span, in order and apart. -/
structure StandsAt (s : Source) (n : Node) (span : Span) : Prop where
  span_eq : n.span? = some span
  between : Between s.tokens span
  le : span.start.offset ≤ span.stop.offset
  inside : ∀ m ∈ n.children, ∀ inner ∈ m.span?, inner.Within span
  ordered : n.children.Pairwise Precedes
  spelled : n.SpelledAs (s.covered span)

/-- All nodes of the tree that are there stand in the source. -/
def Nested (s : Source) (n : Node) : Prop :=
  ∀ m, n.Contains m → m.isMissing = false → ∃ span, m.StandsAt s span

variable {s : Source} {n m : Node} {ns ms : List Node} {span : Span} {b b' d e e' : Nat}

/-- A tree is nested if it stands at its span, and the trees in it are nested. -/
theorem nested_iff : n.Nested s ↔
    (n.isMissing = false → ∃ span, n.StandsAt s span) ∧ ∀ m ∈ n.children, m.Nested s := by
  constructor
  · exact fun h => ⟨h n (.root n), fun m hm k hk => h k (.inside hm hk)⟩
  · rintro ⟨hroot, hinside⟩ k hk
    cases hk with
    | root => exact hroot
    | inside hm hk => exact hinside _ hm k hk

theorem nested_missing : missing.Nested s :=
  nested_iff.2 ⟨nofun, nofun⟩

/-! ## Trees between two offsets -/

/-- The tree is nested, and lies between the offsets. -/
structure Fits (s : Source) (b : Nat) (n : Node) (e : Nat) : Prop where
  le : b ≤ e
  nested : n.Nested s
  span : ∀ inner ∈ n.span?, b ≤ inner.start.offset ∧ inner.stop.offset ≤ e

/-- What fits between two offsets fits between wider ones. -/
theorem Fits.mono (h : n.Fits s b e) (hb : b' ≤ b) (he : e ≤ e') : n.Fits s b' e' where
  le := Nat.le_trans hb (Nat.le_trans h.le he)
  nested := h.nested
  span inner hi := ⟨Nat.le_trans hb (h.span inner hi).1, Nat.le_trans (h.span inner hi).2 he⟩

theorem Fits.widen (h : n.Fits s b e) (he : e ≤ e') : n.Fits s b e' :=
  h.mono (Nat.le_refl b) he

theorem fits_missing (h : b ≤ e) : missing.Fits s b e :=
  ⟨h, nested_missing, nofun⟩

/-- A tree that is there has a span, and fits in it. -/
theorem Fits.exists_span (h : n.Fits s b e) (hn : n.isMissing = false) :
    ∃ span, n.span? = some span ∧ Between s.tokens span ∧ b ≤ span.start.offset ∧
      span.stop.offset ≤ e ∧ n.Fits s span.start.offset span.stop.offset := by
  obtain ⟨span, hspan⟩ := h.nested n (.root n) hn
  obtain ⟨hb, he⟩ := h.span span hspan.span_eq
  refine ⟨span, hspan.span_eq, hspan.between, hb, he, hspan.le, h.nested, fun inner hi => ?_⟩
  obtain rfl : span = inner := Option.some.inj (hspan.span_eq.symm.trans hi)
  exact ⟨Nat.le_refl _, Nat.le_refl _⟩

/-- The trees are nested and lie between the offsets, one behind the other. -/
inductive Stacked (s : Source) : Nat → List Node → Nat → Prop
  | nil {b e : Nat} : b ≤ e → Stacked s b [] e
  | cons {b d e : Nat} {n : Node} {ns : List Node} :
      n.Fits s b d → Stacked s d ns e → Stacked s b (n :: ns) e

namespace Stacked

theorem le (h : Stacked s b ns e) : b ≤ e := by
  induction h with
  | nil hle => exact hle
  | cons hn _ ih => exact Nat.le_trans hn.le ih

/-- A tree that fits is stacked alone. -/
theorem single (h : n.Fits s b e) : Stacked s b [n] e :=
  .cons h (.nil (Nat.le_refl e))

/-- Stacked trees may be put behind stacked trees. -/
theorem append (h : Stacked s b ns d) (h' : Stacked s d ms e) : Stacked s b (ns ++ ms) e := by
  induction h with
  | nil hle =>
    cases h' with
    | nil hle' => exact .nil (Nat.le_trans hle hle')
    | cons hn hns => exact .cons (hn.mono hle (Nat.le_refl _)) hns
  | cons hn _ ih => exact .cons hn (ih h')

theorem mono (h : Stacked s b ns e) (hb : b' ≤ b) (he : e ≤ e') : Stacked s b' ns e' := by
  have hright := h.append (.nil he)
  rw [List.append_nil] at hright
  exact append (.nil hb) hright

theorem widen (h : Stacked s b ns e) (he : e ≤ e') : Stacked s b ns e' :=
  h.mono (Nat.le_refl b) he

/-- Each of stacked trees fits between the ends of the stack. -/
theorem fits_of_mem (h : Stacked s b ns e) : ∀ n ∈ ns, n.Fits s b e := by
  induction h with
  | nil => exact nofun
  | @cons b d e n ns hn hns ih =>
    refine List.forall_mem_cons.2 ⟨hn.widen hns.le, fun m hm => ?_⟩
    exact (ih m hm).mono hn.le (Nat.le_refl e)

/-- Stacked trees stand one behind the other. -/
theorem ordered (h : Stacked s b ns e) : ns.Pairwise Precedes := by
  induction h with
  | nil => exact .nil
  | cons hn hns ih =>
    refine List.pairwise_cons.2 ⟨fun m hm i hi j hj => ?_, ih⟩
    exact Nat.le_trans (hn.span i hi).2 ((hns.fits_of_mem m hm).span j hj).1

/-- **A node over stacked trees is nested**, and fits wherever its span does. -/
theorem fits (hns : Stacked s span.start.offset n.children span.stop.offset)
    (hspan : n.span? = some span) (hbetween : Between s.tokens span)
    (hspelled : n.SpelledAs (s.covered span)) (hb : b ≤ span.start.offset)
    (he : span.stop.offset ≤ e) : n.Fits s b e := by
  refine ⟨Nat.le_trans hb (Nat.le_trans hns.le he), nested_iff.2 ⟨fun _ => ?_, ?_⟩, ?_⟩
  · exact ⟨span, hspan, hbetween, hns.le, fun m hm inner hi => (hns.fits_of_mem m hm).span inner hi,
      hns.ordered, hspelled⟩
  · exact fun m hm => (hns.fits_of_mem m hm).nested
  · intro inner hi
    obtain rfl : span = inner := Option.some.inj (hspan.symm.trans hi)
    exact ⟨hb, he⟩

end Stacked

/-! ## The spans of a nested tree -/

theorem Nested.child (h : n.Nested s) (hm : m ∈ n.children) : m.Nested s :=
  (nested_iff.1 h).2 m hm

/-- A nested tree has a span from a token to a token. -/
theorem Nested.spanPlaced (h : n.Nested s) : SpanPlaced (Between s.tokens) n.span? := by
  intro span hspan
  cases hn : n.isMissing with
  | true =>
    cases n with
    | missing => cases hspan
    | _ => cases hn
  | false =>
    obtain ⟨span', hstands⟩ := h n (.root n) hn
    obtain rfl : span' = span := Option.some.inj (hstands.span_eq.symm.trans hspan)
    exact hstands.between

/-- A nested name has a span from a token to a token. -/
theorem Nested.name {x : Name} (h : x.toNode.Nested s) : x.Placed (Between s.tokens) :=
  h.spanPlaced

mutual

/-- All spans of a nested tree are between tokens. -/
theorem Nested.placed : ∀ {n : Node}, n.Nested s → n.Placed (Between s.tokens)
  | missing, _ => placed_missing
  | identifier .., h => placed_identifier.2 h.spanPlaced
  | integer .., h => placed_integer.2 h.spanPlaced
  | unary _ _ a, h => placed_unary.2 ⟨h.spanPlaced, (h.child (m := a) (by simp [children])).placed⟩
  | binary _ a _ b, h => placed_binary.2 ⟨h.spanPlaced,
      (h.child (m := a) (by simp [children])).placed,
      (h.child (m := b) (by simp [children])).placed⟩
  | conditional _ c a b, h => placed_conditional.2 ⟨h.spanPlaced,
      (h.child (m := c) (by simp [children])).placed,
      (h.child (m := a) (by simp [children])).placed,
      (h.child (m := b) (by simp [children])).placed⟩
  | function _ xs b, h => placed_function.2 ⟨h.spanPlaced,
      fun x hx => (h.child (List.mem_append_left _ (List.mem_map_of_mem hx))).name,
      (h.child (m := b) (by simp [children])).placed⟩
  | call _ c as, h => placed_call.2 ⟨h.spanPlaced, (h.child (m := c) (by simp [children])).placed,
      Nested.placedAll fun a ha => h.child (List.mem_cons_of_mem _ ha)⟩
  | declaration _ x v, h => placed_declaration.2 ⟨h.spanPlaced,
      (h.child (m := x.toNode) (by simp [children])).name,
      (h.child (m := v) (by simp [children])).placed⟩
  | assignment _ x v, h => placed_assignment.2 ⟨h.spanPlaced,
      (h.child (m := x.toNode) (by simp [children])).name,
      (h.child (m := v) (by simp [children])).placed⟩
  | expression _ e, h => placed_expression.2 ⟨h.spanPlaced,
      (h.child (m := e) (by simp [children])).placed⟩
  | block _ ns, h => placed_block.2 ⟨h.spanPlaced, Nested.placedAll fun _ => h.child⟩
  | whileLoop _ c b, h => placed_whileLoop.2 ⟨h.spanPlaced,
      (h.child (m := c) (by simp [children])).placed,
      (h.child (m := b) (by simp [children])).placed⟩
  | forLoop _ i c p b, h => placed_forLoop.2 ⟨h.spanPlaced,
      (h.child (m := i) (by simp [children])).placed,
      (h.child (m := c) (by simp [children])).placed,
      (h.child (m := p) (by simp [children])).placed,
      (h.child (m := b) (by simp [children])).placed⟩
  | program _ ns, h => placed_program.2 ⟨h.spanPlaced, Nested.placedAll fun _ => h.child⟩

/-- All spans inside nested trees run from a token to a token. -/
theorem Nested.placedAll : ∀ {ns : List Node}, (∀ n ∈ ns, n.Nested s) →
    ∀ n ∈ ns, n.Placed (Between s.tokens)
  | [], _ => nofun
  | _ :: _, h => List.forall_mem_cons.2
      ⟨(List.forall_mem_cons.1 h).1.placed, Nested.placedAll (List.forall_mem_cons.1 h).2⟩

end

end Node

end Ember

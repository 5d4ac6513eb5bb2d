import Ember.Session
import Ember.Proofs.Eval.Invariant
import Ember.Proofs.Eval.Operators
import Ember.Proofs.Heap.Matching

/-!
# Evaluation without cells

`Flat` evaluates a tree against one map from names to what they are bound to. There are no
frames, no cells and no functions in it, a declaration does what an assignment does, and nothing
bounds the nesting.

Without functions a program is in one frame all the time, and no two names of a frame share a
cell. So the frame mirrors such a map (`Heap.Mirrors`), and what has no function in it is
evaluated as in `Flat`, as long as it has enough levels (`evalTask_flat`).
-/

namespace Ember

/-- What names are bound to, in the order in which they were first bound. -/
abbrev Bindings := OrderedMap String (Option Value)

/-- A piece of an evaluation against bindings. -/
abbrev Flat := EStateM EvalStop Bindings

namespace Flat

/-- Ends the evaluation with a failure of the program. -/
def fail {α : Type} (cause : RuntimeCause) (span : Option Span) : Flat α :=
  throw (.failed cause span)

/-- The result of an operator, or its failure at the place of the operation. -/
def ofOperation (span : Option Span) (result : Except RuntimeCause Value) :
    Flat (Option Value) :=
  match result with
  | .ok v => return some v
  | .error cause => fail cause span

/-- What a name is bound to. -/
def get (name : String) (span : Option Span) : Flat (Option Value) := do
  match (← EStateM.get).get? name with
  | some v => return v
  | none => fail (.undefined name) span

/-- Binds a name, and gives the value. -/
def update (name : String) (value : Option Value) : Flat (Option Value) := do
  modify (·.put name value)
  return value

/-- Rounds of a loop while its condition holds. The value is that of the last round. -/
def loop (condition round : Flat (Option Value)) (last : Option Value) :
    Nat → Flat (Option Value)
  | 0 => throw (.fault .endless)
  | n + 1 => do
    if holds (← condition) then loop condition round (← round) n else return last

section

variable (rounds : Nat)

mutual

/-- The value of an expression. Nothing can be called. -/
def expression : Node → Flat (Option Value)
  | .integer _ value => return some (.integer value)
  | .identifier span name => get name span
  | .unary span operator operand => do
    ofOperation span (unaryOperation operator (← expression operand))
  | .binary span left operator right => do
    let a ← expression left
    let b ← expression right
    ofOperation span (binaryOperation operator a b)
  | .conditional _ condition consequence alternative => do
    if holds (← expression condition) then block consequence
    else if alternative.isMissing then return none
    else block alternative
  | .call span callee args => do
    let function ← expression callee
    arguments args
    fail (.notCallable (typeNameOf function)) span
  | other => throw (.fault (.unknownExpression other.kindName))

/-- The effect and the value of a statement. -/
def statement : Node → Flat (Option Value)
  | .expression _ e => expression e
  | .declaration _ name value | .assignment _ name value => do
    update name.text (← expression value)
  | .block _ list => statements none list
  | .whileLoop _ condition body => loop (expression condition) (block body) none rounds
  | .forLoop _ init condition post body => do
    let _ ← statement init
    let round : Flat (Option Value) := do
      let value ← block body
      let _ ← statement post
      return value
    loop (expression condition) round none rounds
  | other => throw (.fault (.unknownStatement other.kindName))

/-- The statements of a block. -/
def block : Node → Flat (Option Value)
  | .block _ list | .program _ list => statements none list
  | other => throw (.fault (.noStatements other.kindName))

/-- Statements in order. The value is that of the last one. -/
def statements (last : Option Value) : List Node → Flat (Option Value)
  | [] => return last
  | n :: rest => do
    statements (← statement n) rest

/-- Expressions from left to right. -/
def arguments : List Node → Flat Unit
  | [] => return ()
  | n :: rest => do
    let _ ← expression n
    arguments rest

end

end

/-- What is answered about a program with the given span, and the bindings in the end. -/
def conclude (span : Option Span) :
    EStateM.Result EvalStop Bindings (Option Value) → Except Fault Outcome × Bindings
  | .ok value b => (.ok (.finished value), b)
  | .error (.failed cause place) b => (.ok (.failed cause (cause.diagnostic place)), b)
  | .error .tooDeep b => (.ok (.failed .tooDeep (RuntimeCause.tooDeep.diagnostic span)), b)
  | .error (.fault fault) b => (.error fault, b)

/-- Evaluates a program against the empty map. -/
def run (rounds : Nat) (p : Program) : Except Fault Outcome × Bindings :=
  conclude p.span (statements rounds none p.statements {})

/-- Flat evaluations in turn stop where the first one stops. -/
theorem bind_apply {α β : Type} (x : Flat α) (f : α → Flat β) (b : Bindings) :
    (x >>= f) b = match x b with
      | .ok a b' => f a b'
      | .error stop b' => .error stop b' := by
  change EStateM.bind x f b = _
  unfold EStateM.bind
  cases x b <;> rfl

/-- A flat evaluation looks a name up in its bindings. -/
theorem get_apply (name : String) (span : Option Span) (b : Bindings) :
    get name span b = match b.get? name with
      | some v => .ok v b
      | none => .error (.failed (.undefined name) span) b := by
  unfold get
  rw [bind_apply]
  change (match b.get? name with
    | some v => pure v
    | none => fail (.undefined name) span : Flat (Option Value)) b = _
  cases b.get? name <;> rfl

end Flat

/-! ## Trees without functions -/

namespace Node

mutual

/-- The tree has no function in it. -/
def functionless : Node → Bool
  | missing | identifier .. | integer .. => true
  | function .. => false
  | unary _ _ operand => operand.functionless
  | binary _ left _ right => left.functionless && right.functionless
  | conditional _ condition consequence alternative =>
    condition.functionless && consequence.functionless && alternative.functionless
  | call _ callee arguments => callee.functionless && functionlessAll arguments
  | declaration _ _ value | assignment _ _ value => value.functionless
  | expression _ e => e.functionless
  | block _ statements | program _ statements => functionlessAll statements
  | whileLoop _ condition body => condition.functionless && body.functionless
  | forLoop _ init condition post body =>
    init.functionless && condition.functionless && post.functionless && body.functionless

/-- The trees have no function in them. -/
def functionlessAll : List Node → Bool
  | [] => true
  | n :: ns => n.functionless && functionlessAll ns

end

mutual

/-- The height of a tree. -/
def height : Node → Nat
  | missing | identifier .. | integer .. => 0
  | unary _ _ operand => operand.height + 1
  | binary _ left _ right => max left.height right.height + 1
  | conditional _ condition consequence alternative =>
    max condition.height (max consequence.height alternative.height) + 1
  | function _ _ body => body.height + 1
  | call _ callee arguments => max callee.height (heightAll arguments) + 1
  | declaration _ _ value | assignment _ _ value => value.height + 1
  | expression _ e => e.height + 1
  | block _ statements | program _ statements => heightAll statements + 1
  | whileLoop _ condition body => max condition.height body.height + 1
  | forLoop _ init condition post body =>
    max (max init.height condition.height) (max post.height body.height) + 1

/-- The height of the highest tree. -/
def heightAll : List Node → Nat
  | [] => 0
  | n :: ns => max n.height (heightAll ns)

end

/-- The tree has no function in it, and is lower than the bound. -/
structure Within (bound : Nat) (n : Node) : Prop where
  functionless : n.functionless
  height_lt : n.height < bound

/-- What holds of a list of trees holds of each. -/
theorem forall_within {bound : Nat} {ns : List Node} (hfree : functionlessAll ns)
    (hlt : heightAll ns < bound) : ∀ n ∈ ns, n.Within bound := by
  induction ns with
  | nil => exact fun n hn => absurd hn List.not_mem_nil
  | cons n ns ih =>
    rw [functionlessAll, Bool.and_eq_true] at hfree
    rw [heightAll] at hlt
    exact List.forall_mem_cons.2 ⟨⟨hfree.1, by omega⟩, ih hfree.2 (by omega)⟩

end Node

/-! ## Frames that mirror bindings -/

namespace OrderedMap

variable {κ α β : Type} [DecidableEq κ] {S T : α → β → Prop} {m : OrderedMap κ α}
  {b : OrderedMap κ β} {key : κ} {value : α} {v : β}

/-- A new value may be put without a repetition. -/
theorem nodup_values_put (hm : m.values.Nodup) (hv : value ∉ m.values) (key : κ) :
    (m.put key value).values.Nodup := by
  obtain ⟨entries⟩ := m
  unfold put values at *
  induction entries with
  | nil => simp [putEntry]
  | cons entry rest ih =>
    obtain ⟨k, w⟩ := entry
    simp only [List.map_cons, List.nodup_cons, List.mem_cons, not_or] at hm hv
    rw [putEntry]
    split
    · exact List.nodup_cons.2 ⟨hv.2, hm.2⟩
    · refine List.nodup_cons.2 ⟨fun hmem => ?_, ih hm.2 hv.2⟩
      rcases mem_values_put (m := ⟨rest⟩) hmem with he | hmem
      · exact hv.1 he.symm
      · exact hm.1 hmem

omit [DecidableEq κ] in
/-- Maps stay related if the relation holds of the values that are in them. -/
theorem Rel.mono_of_values (h : Rel S m b) (hT : ∀ a ∈ m.values, ∀ w, S a w → T a w) :
    Rel T m b := by
  obtain ⟨entries⟩ := m
  obtain ⟨entries'⟩ := b
  replace h : List.Forall₂ _ entries entries' := h
  change List.Forall₂ _ entries entries'
  induction h with
  | nil => exact .nil
  | cons he _ ih =>
    refine .cons ⟨he.1, hT _ (List.mem_cons_self ..) _ he.2⟩ (ih fun a ha => ?_)
    exact hT a (List.mem_cons_of_mem _ ha)

/-- What is at one key is changed on one side, and put there on the other. -/
theorem Rel.replace (h : Rel S m b) (hm : m.values.Nodup) (hkey : m.get? key = some value)
    (hv : T value v) (hT : ∀ a w, a ≠ value → S a w → T a w) : Rel T m (b.put key v) := by
  obtain ⟨entries⟩ := m
  obtain ⟨entries'⟩ := b
  replace h : List.Forall₂ _ entries entries' := h
  change List.Forall₂ _ entries (putEntry key v entries')
  induction h with
  | nil => cases hkey
  | @cons e e' rest rest' he hrest ih =>
    obtain ⟨k, a⟩ := e
    obtain ⟨k', w⟩ := e'
    obtain ⟨rfl, hw⟩ := he
    obtain ⟨hnot, hnodup⟩ := List.nodup_cons.1 hm
    rw [putEntry]
    by_cases hk : k = key
    · -- it is not at another key
      obtain rfl : a = value := by simpa [OrderedMap.get?, hk] using hkey
      have hrest' : Rel S ⟨rest⟩ ⟨rest'⟩ := hrest
      rw [if_pos hk]
      exact .cons ⟨rfl, hv⟩ (hrest'.mono_of_values fun c hc w => hT c w fun he => hnot (he ▸ hc))
    · have hkey' : (⟨rest⟩ : OrderedMap κ α).get? key = some value := by
        simpa [OrderedMap.get?, hk] using hkey
      have hne : a ≠ value := fun ha => hnot (ha ▸ mem_values_of_get? hkey')
      rw [if_neg hk]
      exact .cons ⟨rfl, hT _ _ hne hw⟩ (ih hnodup hkey')

end OrderedMap

namespace Heap

variable {h : Heap} {f : FrameId} {b : Bindings} {x : String} {v : Option Value}

/-- The cell exists and holds the value, and the value is no function. -/
def HoldsPlain (h : Heap) (c : CellId) (v : Option Value) : Prop :=
  c < h.cells.size ∧ h.content c = v ∧ ResultHolds Value.Plain v

/-- A frame without frames around it binds the same names as the bindings, in the same order and
to the same values. Each name has a cell of its own, and there are no functions. -/
structure Mirrors (f : FrameId) (h : Heap) (b : Bindings) : Prop where
  lt : f < h.frames.size
  outers : (h.frame f).outers = []
  cells : (h.frame f).slots.values.Nodup
  slots : (h.frame f).slots.Rel h.HoldsPlain b

namespace Mirrors

/-- The heap at the start mirrors no bindings. -/
theorem initial : Mirrors globalFrame initial {} where
  lt := by decide
  outers := rfl
  cells := .nil
  slots := .nil

/-- The cells of a mirrored frame are there. -/
theorem cells_lt (hm : Mirrors f h b) {c : CellId} (hc : c ∈ (h.frame f).slots.values) :
    c < h.cells.size := by
  obtain ⟨e, he, rfl⟩ := List.mem_map.1 hc
  obtain ⟨e', -, hheld⟩ := Matching.forall₂_mem hm.slots he
  exact hheld.2.1

/-- A name stands for the same. -/
theorem get? (hm : Mirrors f h b) (x : String) : h.get? f x = b.get? x := by
  have hslot := hm.slots.get? x
  have hlookup : h.lookup f x = (h.frame f).slots.get? x := by
    rw [lookup, chain, hm.outers]
    cases hs : (h.frame f).slots.get? x <;> simp [hs]
  rw [Heap.get?, hlookup]
  generalize (h.frame f).slots.get? x = r at hslot ⊢
  generalize b.get? x = r' at hslot ⊢
  cases hslot with
  | none => rfl
  | some hheld => exact congrArg some hheld.2.1

/-- A mirrored binding has a value that is no function. -/
theorem plain (hm : Mirrors f h b) (hx : b.get? x = some v) : ResultHolds Value.Plain v := by
  have hslot := hm.slots.get? x
  rw [hx] at hslot
  generalize (h.frame f).slots.get? x = r at hslot
  cases hslot with
  | some hheld => exact hheld.2.2

/-- A declaration binds the name to a cell that no other name has. -/
theorem declare (hm : Mirrors f h b) (x : String) (hv : ResultHolds Value.Plain v) :
    Mirrors f (h.declare f x v) (b.put x v) where
  lt := by
    rw [frames_declare]
    exact hm.lt
  outers := by rw [outers_declare, hm.outers]
  cells := by
    rw [slots_declare, if_pos ⟨rfl, hm.lt⟩]
    exact OrderedMap.nodup_values_put hm.cells (fun hc => Nat.lt_irrefl _ (hm.cells_lt hc)) x
  slots := by
    have hold : ∀ c w, h.HoldsPlain c w → (h.declare f x v).HoldsPlain c w := by
      rintro c w ⟨hlt, hc, hw⟩
      refine ⟨?_, ?_, hw⟩
      · rw [cells_declare]
        exact Nat.lt_succ_of_lt hlt
      · rw [content_declare, if_neg (Nat.ne_of_lt hlt), hc]
    have hnew : (h.declare f x v).HoldsPlain h.cells.size v := by
      refine ⟨?_, ?_, hv⟩
      · rw [cells_declare]
        exact Nat.lt_succ_self _
      · rw [content_declare, if_pos rfl]
    rw [slots_declare, if_pos ⟨rfl, hm.lt⟩]
    exact (hm.slots.mono hold).put hnew

/-- An assignment writes to a cell that no other name has, or declares the name. -/
theorem assign (hm : Mirrors f h b) (x : String) (hv : ResultHolds Value.Plain v) :
    Mirrors f (h.assign f x v) (b.put x v) := by
  cases hs : h.slot? f x with
  | none =>
    rw [assign_of_no_slot hs]
    exact hm.declare x hv
  | some cell =>
    have hlt := hm.cells_lt (OrderedMap.mem_values_of_get? hs)
    rw [assign_of_slot hs]
    refine ⟨hm.lt, hm.outers, hm.cells, hm.slots.replace hm.cells hs ?_ ?_⟩
    · exact ⟨by simpa using hlt, by rw [content_write, if_pos ⟨rfl, hlt⟩], hv⟩
    · rintro c w hne ⟨hc, hcontent, hw⟩
      exact ⟨by simpa using hc, by rw [content_write, if_neg fun h' => hne h'.1, hcontent], hw⟩

/-- The frame shows what the bindings are. -/
theorem bindings (hm : Mirrors f h b) : h.bindings f = b.entries := by
  have hs : List.Forall₂ _ _ _ := hm.slots
  rw [Heap.bindings, ← List.forall₂_eq_eq_eq, List.forall₂_map_left_iff]
  exact hs.imp fun e e' he => Prod.ext he.1 he.2.2.1

end Mirrors

end Heap

/-! ## Evaluations side by side -/

namespace Run

open Heap

variable {α β γ δ : Type} {Q : α → β → Prop} {R : γ → δ → Prop} {f : FrameId} {x : Run α}
  {y : Flat β} {v : Option Value} {span : Option Span}

/-- Both evaluations came to related results, or both ended early for the same reason, and the
frame mirrors the bindings. -/
inductive Reflects (f : FrameId) (Q : α → β → Prop) :
    EStateM.Result EvalStop Heap α → EStateM.Result EvalStop Bindings β → Prop
  | ok {a : α} {a' : β} {h : Heap} {b : Bindings} : Q a a' → Mirrors f h b →
      Reflects f Q (.ok a h) (.ok a' b)
  | error (stop : EvalStop) {h : Heap} {b : Bindings} : Mirrors f h b →
      Reflects f Q (.error stop h) (.error stop b)

/-- Against a frame that mirrors the bindings, both do the same. -/
def Flattens (f : FrameId) (Q : α → β → Prop) (x : Run α) (y : Flat β) : Prop :=
  ∀ h b, Mirrors f h b → Reflects f Q (x h) (y b)

/-- The same value, which is no function, or none. -/
def SamePlain (v w : Option Value) : Prop :=
  v = w ∧ ResultHolds Value.Plain v

namespace Flattens

theorem pure {a : α} {a' : β} (ha : Q a a') : Flattens f Q (Pure.pure a) (Pure.pure a') :=
  fun _ _ hm => .ok ha hm

theorem throw (stop : EvalStop) :
    Flattens f Q (MonadExcept.throw stop) (MonadExcept.throw stop) :=
  fun _ _ hm => .error stop hm

/-- Evaluations in turn are flattened in turn. -/
theorem bind {k : α → Run γ} {l : β → Flat δ} (hx : Flattens f Q x y)
    (hk : ∀ a a', Q a a' → Flattens f R (k a) (l a')) :
    Flattens f R (x >>= k) (y >>= l) := by
  intro h b hm
  have hrun := hx h b hm
  rw [bind_apply, Flat.bind_apply]
  generalize x h = r at hrun ⊢
  generalize y b = r' at hrun ⊢
  cases hrun with
  | ok ha hm' => exact hk _ _ ha _ _ hm'
  | error stop hm' => exact .error stop hm'

theorem ite {c : Prop} [Decidable c] {x' : Run α} {y' : Flat β} (hx : Flattens f Q x y)
    (hx' : Flattens f Q x' y') :
    Flattens f Q (if c then x else x') (if c then y else y') := by
  split
  · exact hx
  · exact hx'

/-- Operators do the same to values that are no functions. -/
theorem ofOperation {result : Except RuntimeCause Value} (hp : ∀ v, result = .ok v → v.Plain) :
    Flattens f SamePlain (ofOperation span result) (Flat.ofOperation span result) := by
  cases result with
  | ok v => exact .pure ⟨rfl, resultHolds_some (hp v rfl)⟩
  | error cause => exact .throw _

/-- A name is found in the frame or among the bindings, with the same value. -/
theorem get (name : String) : Flattens f SamePlain (get f name span) (Flat.get name span) := by
  intro h b hm
  rw [get_apply, Flat.get_apply, hm.get?]
  cases hx : b.get? name with
  | none => exact .error _ hm
  | some v => exact .ok ⟨rfl, hm.plain hx⟩ hm

/-- A declaration is an update of the bindings. -/
theorem declare (name : String) (hv : ResultHolds Value.Plain v) :
    Flattens f SamePlain (declare f name v) (Flat.update name v) :=
  fun _ _ hm => .ok ⟨rfl, hv⟩ (hm.declare name hv)

/-- An assignment is an update of the bindings too. -/
theorem assign (name : String) (hv : ResultHolds Value.Plain v) :
    Flattens f SamePlain (assign f name v) (Flat.update name v) :=
  fun _ _ hm => .ok ⟨rfl, hv⟩ (hm.assign name hv)

/-- A loop is flattened round by round. -/
theorem loop {condition round : Run (Option Value)} {condition' round' : Flat (Option Value)}
    (hc : Flattens f SamePlain condition condition') (hr : Flattens f SamePlain round round')
    {last last' : Option Value} (hl : SamePlain last last') (n : Nat) :
    Flattens f SamePlain (loop condition round last n) (Flat.loop condition' round' last' n) := by
  induction n generalizing last last' with
  | zero => exact .throw _
  | succ n ih =>
    rw [Run.loop, Flat.loop]
    refine hc.bind ?_
    rintro c _ ⟨rfl, -⟩
    exact .ite (hr.bind fun _ _ hv => ih hv) (.pure hl)

end Flattens

/-- No value on either side. -/
theorem samePlain_none : SamePlain none none :=
  ⟨rfl, resultHolds_none⟩

/-! ### The rules over what stands inside -/

section

variable {rounds bound : Nat} {self : Task → FrameId → Run (Option Value)}
  (hexpression : ∀ n : Node, n.Within bound →
    Flattens f SamePlain (self (.expression n) f) (Flat.expression rounds n))

include hexpression

/-- The values of arguments are not needed, for nothing can be called. -/
theorem flat_arguments (found : Array (Option Value)) {ns : List Node}
    (hns : ∀ n ∈ ns, n.Within bound) :
    Flattens f (fun _ _ => True) (arguments self f found ns) (Flat.arguments rounds ns) := by
  induction ns generalizing found with
  | nil => exact .pure trivial
  | cons n ns ih =>
    obtain ⟨hn, hns⟩ := List.forall_mem_cons.1 hns
    rw [arguments, Flat.arguments]
    exact (hexpression n hn).bind fun v _ _ => ih (found.push v) hns

variable (hstatement : ∀ n : Node, n.Within bound →
    Flattens f SamePlain (self (.statement n) f) (Flat.statement rounds n))

omit hexpression in
include hstatement in
/-- Statements within the bound are flattened one after the other. -/
theorem flat_statements {last last' : Option Value} (hl : SamePlain last last')
    {ns : List Node} (hns : ∀ n ∈ ns, n.Within bound) :
    Flattens f SamePlain (statements self f last ns) (Flat.statements rounds last' ns) := by
  induction ns generalizing last last' with
  | nil => exact .pure hl
  | cons n ns ih =>
    obtain ⟨hn, hns⟩ := List.forall_mem_cons.1 hns
    rw [statements, Flat.statements]
    exact (hstatement n hn).bind fun _ _ hv => ih hv hns

omit hexpression in
include hstatement in
/-- A block within the bound is flattened as its statements are. -/
theorem flat_block {n : Node} (hn : n.Within bound) :
    Flattens f SamePlain (block self f n) (Flat.block rounds n) := by
  obtain ⟨hfree, hlt⟩ := hn
  cases n with
  | block span ns | program span ns =>
    rw [Node.height] at hlt
    have hns : ∀ n ∈ ns, n.Within bound := Node.forall_within hfree (by omega)
    rw [Flat.block]
    exact flat_statements hstatement samePlain_none hns
  | _ => exact .throw _

include hstatement

/-- An expression one above the bound is flattened if those below are. -/
theorem flat_expression {n : Node} (hn : n.Within (bound + 1)) :
    Flattens f SamePlain (expression self f n) (Flat.expression rounds n) := by
  obtain ⟨hfree, hlt⟩ := hn
  cases n with
  | integer span n => exact .pure ⟨rfl, resultHolds_some trivial⟩
  | identifier span name => exact .get name
  | unary span operator a =>
    rw [Node.height] at hlt
    have ha : a.Within bound := ⟨hfree, by omega⟩
    rw [expression, Flat.expression]
    refine (hexpression a ha).bind ?_
    rintro v _ ⟨rfl, -⟩
    exact .ofOperation fun _ => unaryOperation_plain
  | binary span a operator b =>
    rw [Node.functionless, Bool.and_eq_true] at hfree
    rw [Node.height] at hlt
    have ha : a.Within bound := ⟨hfree.1, by omega⟩
    have hb : b.Within bound := ⟨hfree.2, by omega⟩
    rw [expression, Flat.expression]
    refine (hexpression a ha).bind ?_
    rintro v _ ⟨rfl, -⟩
    refine (hexpression b hb).bind ?_
    rintro w _ ⟨rfl, -⟩
    exact .ofOperation fun _ => binaryOperation_plain
  | conditional span c a b =>
    rw [Node.functionless, Bool.and_eq_true, Bool.and_eq_true] at hfree
    rw [Node.height] at hlt
    have hc : c.Within bound := ⟨hfree.1.1, by omega⟩
    have ha : a.Within bound := ⟨hfree.1.2, by omega⟩
    have hb : b.Within bound := ⟨hfree.2, by omega⟩
    rw [expression, Flat.expression]
    refine (hexpression c hc).bind ?_
    rintro v _ ⟨rfl, -⟩
    refine .ite (flat_block hstatement ha) ?_
    exact .ite (.pure samePlain_none) (flat_block hstatement hb)
  | function span params body => cases hfree
  | call span callee args =>
    rw [Node.functionless, Bool.and_eq_true] at hfree
    rw [Node.height] at hlt
    have hcallee : callee.Within bound := ⟨hfree.1, by omega⟩
    have hargs : ∀ n ∈ args, n.Within bound := Node.forall_within hfree.2 (by omega)
    rw [expression, Flat.expression]
    refine (hexpression callee hcallee).bind ?_
    rintro v _ ⟨rfl, hv⟩
    refine (flat_arguments hexpression #[] hargs).bind fun values _ _ => ?_
    -- the value is no function
    match v with
    | none | some (.integer _) | some (.boolean _) => exact .throw _
    | some (.function c) => cases hv _ rfl
  | _ => exact .throw _

/-- A statement one above the bound is flattened if those below are. -/
theorem flat_statement {n : Node} (hn : n.Within (bound + 1)) :
    Flattens f SamePlain (statement self f rounds n) (Flat.statement rounds n) := by
  obtain ⟨hfree, hlt⟩ := hn
  cases n with
  | expression span e =>
    rw [Node.height] at hlt
    rw [statement, Flat.statement]
    exact hexpression e ⟨hfree, by omega⟩
  | declaration span name e =>
    rw [Node.height] at hlt
    have he : e.Within bound := ⟨hfree, by omega⟩
    rw [statement, Flat.statement]
    refine (hexpression e he).bind ?_
    rintro v _ ⟨rfl, hv⟩
    exact .declare name.text hv
  | assignment span name e =>
    rw [Node.height] at hlt
    have he : e.Within bound := ⟨hfree, by omega⟩
    rw [statement, Flat.statement]
    refine (hexpression e he).bind ?_
    rintro v _ ⟨rfl, hv⟩
    exact .assign name.text hv
  | block span ns =>
    rw [Node.height] at hlt
    have hns : ∀ n ∈ ns, n.Within bound := Node.forall_within hfree (by omega)
    rw [statement, Flat.statement]
    exact flat_statements hstatement samePlain_none hns
  | whileLoop span c b =>
    rw [Node.functionless, Bool.and_eq_true] at hfree
    rw [Node.height] at hlt
    have hc : c.Within bound := ⟨hfree.1, by omega⟩
    have hb : b.Within bound := ⟨hfree.2, by omega⟩
    rw [statement, Flat.statement]
    exact .loop (hexpression c hc) (flat_block hstatement hb) samePlain_none rounds
  | forLoop span i c p b =>
    rw [Node.functionless, Bool.and_eq_true, Bool.and_eq_true, Bool.and_eq_true] at hfree
    rw [Node.height] at hlt
    have hi : i.Within bound := ⟨hfree.1.1.1, by omega⟩
    have hc : c.Within bound := ⟨hfree.1.1.2, by omega⟩
    have hp : p.Within bound := ⟨hfree.1.2, by omega⟩
    have hb : b.Within bound := ⟨hfree.2, by omega⟩
    rw [statement, Flat.statement]
    refine (hstatement i hi).bind fun _ _ _ => ?_
    refine .loop (hexpression c hc) ?_ samePlain_none rounds
    refine (flat_block hstatement hb).bind fun v w hv => ?_
    exact (hstatement p hp).bind fun _ _ _ => .pure hv
  | _ => exact .throw _

end

end Run

open Run

/-- **What has no function in it is evaluated without cells**, as long as it has two levels for
each step down the tree. -/
theorem evalTask_flat (rounds depth : Nat) (f : FrameId) (n : Node) (hfree : n.functionless)
    (hdepth : 2 * n.height + 2 ≤ depth) :
    Flattens f SamePlain (evalTask rounds depth (.expression n) f) (Flat.expression rounds n) ∧
      Flattens f SamePlain (evalTask rounds depth (.statement n) f) (Flat.statement rounds n) := by
  induction depth using Nat.strongRecOn generalizing n with
  | ind depth ih =>
    obtain ⟨inner, rfl⟩ : ∃ inner, depth = inner + 2 := ⟨depth - 2, by omega⟩
    -- what stands inside is lower, and has two levels less
    have hself := fun (m : Node) (hm : m.Within n.height) =>
      ih inner (by omega) m hm.functionless (by have := hm.height_lt; omega)
    have hexpression := fun m hm => (hself m hm).1
    have hstatement := fun m hm => (hself m hm).2
    have hn : n.Within (n.height + 1) := ⟨hfree, Nat.lt_succ_self _⟩
    exact ⟨flat_expression hexpression hstatement hn, flat_statement hexpression hstatement hn⟩

end Ember

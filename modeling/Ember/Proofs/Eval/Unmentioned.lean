import Ember.Proofs.Eval.Invariant
import Ember.Proofs.Eval.Operators
import Ember.Proofs.Heap.Without

/-!
# Names that are not mentioned

A tree that does not mention a name is evaluated in the same way whether the name is bound or
not, and whatever it is bound to: from two heaps that are the same but for the name, evaluation
comes to the same result, to heaps that are again the same but for the name, and leaves what the
name was bound to alone in both (`evalTask_blind`). The functions that are called on the way must
not mention the name either. They may have it as a parameter, for a parameter is bound in a frame
of its own.
-/

namespace Ember

variable {x : String}

/-! ## Mentions -/

namespace Node

mutual

/-- The names that occur in a tree, as identifiers, as parameters, and as targets of
declarations and assignments. -/
def names : Node → List String
  | missing | integer .. => []
  | identifier _ name => [name]
  | unary _ _ operand => operand.names
  | binary _ left _ right => left.names ++ right.names
  | conditional _ condition consequence alternative =>
    condition.names ++ consequence.names ++ alternative.names
  | function _ parameters body => parameters.map Name.text ++ body.names
  | call _ callee arguments => callee.names ++ namesAll arguments
  | declaration _ name value | assignment _ name value => name.text :: value.names
  | expression _ e => e.names
  | block _ statements | program _ statements => namesAll statements
  | whileLoop _ condition body => condition.names ++ body.names
  | forLoop _ init condition post body =>
    init.names ++ condition.names ++ post.names ++ body.names

/-- The names that occur in a list of trees. -/
def namesAll : List Node → List String
  | [] => []
  | n :: ns => n.names ++ namesAll ns

end

/-- The tree does not mention the name. -/
def Omits (x : String) (n : Node) : Prop :=
  x ∉ n.names

instance (x : String) (n : Node) : Decidable (n.Omits x) :=
  inferInstanceAs (Decidable (x ∉ n.names))

/-- Trees do not mention a name if none of them does. -/
theorem notMem_namesAll {ns : List Node} : x ∉ namesAll ns ↔ ∀ n ∈ ns, n.Omits x := by
  induction ns with
  | nil => simp [namesAll]
  | cons n ns ih => simp [namesAll, Omits, ih]

end Node

/-- The value is no function, or one whose body does not mention the name. -/
def Value.Omits (x : String) : Value → Prop
  | .function c => c.body.Omits x
  | _ => True

/-- Values that are no functions mention nothing. -/
theorem Value.Plain.omits {v : Value} (hv : v.Plain) : v.Omits x := by
  cases v with
  | function c => cases hv
  | _ => trivial

/-- What is to be evaluated does not mention the name. -/
def Task.Omits (x : String) : Task → Prop
  | .expression n | .statement n | .body n => n.Omits x

/-! ## Pairs of heaps -/

namespace Heap

variable {h h' g g' k k' : Heap} {f : FrameId} {y : String} {value : Option Value}

/-- Two heaps that are the same but for the name, each with every cell under one name, and
without functions that mention the name. -/
structure Twofold (x : String) (h h' : Heap) : Prop where
  same : SameBut x h h'
  left : h.Named
  right : h'.Named
  omits : h.Holds (Value.Omits x)

/-- From a pair of heaps two evaluations have come to another pair, and both left the name
alone. -/
structure Onward (x : String) (h h' g g' : Heap) : Prop where
  pair : Twofold x g g'
  left : Untouched x h g
  right : Untouched x h' g'

/-- Two heaps may go on in several steps. -/
theorem Onward.trans (hg : Onward x h h' g g') (hk : Onward x g g' k k') :
    Onward x h h' k k' :=
  ⟨hk.pair, hg.left.trans hk.left, hg.right.trans hk.right⟩

namespace Twofold

theorem stay (hh : Twofold x h h') : Onward x h h' h h' :=
  ⟨hh, .refl x h, .refl x h'⟩

/-- Both heaps may declare another name. -/
theorem declare (hh : Twofold x h h') (f : FrameId) (hy : y ≠ x)
    (hv : ResultHolds (Value.Omits x) value) :
    Onward x h h' (h.declare f y value) (h'.declare f y value) where
  pair := ⟨hh.same.declare f y value, hh.left.change (.declare f y value),
    hh.right.change (.declare f y value), hh.omits.declare hv⟩
  left := (Untouched.refl x h).declare hh.left (fun _ => hy) value
  right := (Untouched.refl x h').declare hh.right (fun _ => hy) value

/-- Both heaps may assign to another name. -/
theorem assign (hh : Twofold x h h') (f : FrameId) (hy : y ≠ x)
    (hv : ResultHolds (Value.Omits x) value) :
    Onward x h h' (h.assign f y value) (h'.assign f y value) where
  pair := ⟨hh.same.assign f hy value, hh.left.change (.assign f y value),
    hh.right.change (.assign f y value), hh.omits.assign hv⟩
  left := (Untouched.refl x h).assign hh.left hy value
  right := (Untouched.refl x h').assign hh.right hy value

/-- Both heaps may take a snapshot, with the name in it or not. -/
theorem capture (hh : Twofold x h h') (f : FrameId) :
    Onward x h h' (h.capture f).2 (h'.capture f).2 where
  pair := ⟨hh.same.capture f, hh.left.change (.capture f), hh.right.change (.capture f), hh.omits⟩
  left := (Untouched.refl x h).addFrame _
  right := (Untouched.refl x h').addFrame _

/-- The frame of a call may bind any names. -/
theorem enter (hh : Twofold x h h') (f : FrameId) (name : String)
    {bindings : List (String × Option Value)}
    (hb : ∀ b ∈ bindings, ResultHolds (Value.Omits x) b.2) :
    Onward x h h' (h.enter f name bindings).2 (h'.enter f name bindings).2 where
  pair := by
    have homits : (h.enclose f name).2.Holds (Value.Omits x) := hh.omits
    exact ⟨(hh.same.enter f name bindings).2, hh.left.enter f name bindings,
      hh.right.enter f name bindings, homits.declareAll hb⟩
  left := .enter hh.left f name bindings
  right := .enter hh.right f name bindings

end Twofold

end Heap

/-! ## Evaluations -/

namespace Run

open Heap

variable {α β : Type} {Q : α → Prop} {R : β → Prop} {f : FrameId} {y : String}
  {span : Option Span} {value : Option Value}

/-- Both evaluations came to the same result, which has the property, or both ended early for
the same reason. -/
inductive Agree (x : String) (Q : α → Prop) (h h' : Heap) :
    EStateM.Result EvalStop Heap α → EStateM.Result EvalStop Heap α → Prop
  | ok {a : α} {g g' : Heap} : Q a → Onward x h h' g g' → Agree x Q h h' (.ok a g) (.ok a g')
  | error (stop : EvalStop) {g g' : Heap} : Onward x h h' g g' →
      Agree x Q h h' (.error stop g) (.error stop g')

/-- The evaluation does not see the name. -/
def Blind (x : String) (Q : α → Prop) (r : Run α) : Prop :=
  ∀ h h' : Heap, Twofold x h h' → Agree x Q h h' (r h) (r h')

/-- A result whose functions do not mention the name. -/
abbrev OmitsResult (x : String) : Option Value → Prop :=
  ResultHolds (Value.Omits x)

namespace Blind

theorem pure {a : α} (ha : Q a) : Blind x Q (Pure.pure a) :=
  fun _ _ hh => .ok ha hh.stay

theorem throw (stop : EvalStop) : Blind x Q (MonadExcept.throw stop) :=
  fun _ _ hh => .error stop hh.stay

/-- Evaluations in turn that are blind to a name are blind to it together. -/
theorem bind {r : Run α} {k : α → Run β} (hr : Blind x Q r) (hk : ∀ a, Q a → Blind x R (k a)) :
    Blind x R (r >>= k) := by
  intro h h' hh
  have hrun := hr h h' hh
  rw [bind_apply, bind_apply]
  generalize r h = s at hrun ⊢
  generalize r h' = s' at hrun ⊢
  cases hrun with
  | error stop hg => exact .error stop hg
  | @ok a g g' ha hg =>
    have hrest := hk a ha g g' hg.pair
    change Agree x R h h' (k a g) (k a g')
    generalize k a g = t at hrest ⊢
    generalize k a g' = t' at hrest ⊢
    cases hrest with
    | ok hb hk => exact .ok hb (hg.trans hk)
    | error stop hk => exact .error stop (hg.trans hk)

theorem ite {c : Prop} [Decidable c] {r s : Run α} (hr : Blind x Q r) (hs : Blind x Q s) :
    Blind x Q (if c then r else s) := by
  split
  · exact hr
  · exact hs

/-- An operator gives no function, so nothing that mentions the name. -/
theorem ofOperation {result : Except RuntimeCause Value} (hp : ∀ v, result = .ok v → v.Plain) :
    Blind x (OmitsResult x) (ofOperation span result) := by
  cases result with
  | ok v => exact .pure (resultHolds_some (hp v rfl).omits)
  | error cause => exact .throw _

/-- Another name is found the same, with a value that omits the name. -/
theorem get (hy : y ≠ x) : Blind x (OmitsResult x) (get f y span) := by
  intro h h' hh
  rw [get_apply, get_apply, ← hh.same.get? f hy]
  cases hg : h.get? f y with
  | none => exact .error _ hh.stay
  | some v => exact .ok (hh.omits.lookup hg) hh.stay

/-- A declaration of another name is blind to the name. -/
theorem declare (hy : y ≠ x) (hv : OmitsResult x value) :
    Blind x (OmitsResult x) (declare f y value) :=
  fun _ _ hh => .ok hv (hh.declare f hy hv)

/-- An assignment to another name is blind to the name. -/
theorem assign (hy : y ≠ x) (hv : OmitsResult x value) :
    Blind x (OmitsResult x) (assign f y value) :=
  fun _ _ hh => .ok hv (hh.assign f hy hv)

/-- The frame of a closure has the same number in both heaps. -/
theorem capture : Blind x (fun _ => True) (modifyGet (·.capture f)) := by
  intro h h' hh
  change Agree x _ h h' (.ok h.frames.size (h.capture f).2) (.ok h'.frames.size (h'.capture f).2)
  rw [← hh.same.size]
  exact .ok trivial (hh.capture f)

/-- The frame of a call has the same number in both heaps. -/
theorem enter (name : String) {bindings : List (String × Option Value)}
    (hb : ∀ b ∈ bindings, OmitsResult x b.2) :
    Blind x (fun _ => True) (modifyGet (·.enter f name bindings)) := by
  intro h h' hh
  have hinner := (hh.same.enter f name bindings).1
  change Agree x _ h h' (.ok (h.enter f name bindings).1 (h.enter f name bindings).2)
    (.ok (h'.enter f name bindings).1 (h'.enter f name bindings).2)
  rw [← hinner]
  exact .ok trivial (hh.enter f name hb)

/-- A loop is blind to the name if its condition and its rounds are. -/
theorem loop {condition round : Run (Option Value)} (hc : Blind x (OmitsResult x) condition)
    (hr : Blind x (OmitsResult x) round) (hv : OmitsResult x value) (n : Nat) :
    Blind x (OmitsResult x) (loop condition round value n) := by
  induction n generalizing value with
  | zero => exact .throw _
  | succ n ih =>
    rw [Run.loop]
    exact hc.bind fun c _ => .ite (hr.bind fun v hv => ih hv) (.pure hv)

end Blind

/-! ### The rules over what stands inside -/

section

variable {self : Task → FrameId → Run (Option Value)}
  (hself : ∀ task f, task.Omits x → Blind x (OmitsResult x) (self task f))

include hself

/-- Statements that omit the name are blind to it one after the other. -/
theorem blind_statements (hv : OmitsResult x value) {ns : List Node}
    (hns : ∀ n ∈ ns, n.Omits x) : Blind x (OmitsResult x) (statements self f value ns) := by
  induction ns generalizing value with
  | nil => exact .pure hv
  | cons n ns ih =>
    obtain ⟨hn, hns⟩ := List.forall_mem_cons.1 hns
    rw [statements]
    exact (hself (.statement n) f hn).bind fun v hv => ih hv hns

/-- A block that omits the name is blind to it. -/
theorem blind_block {n : Node} (hn : n.Omits x) :
    Blind x (OmitsResult x) (block self f n) := by
  cases n with
  | block span ns =>
    exact blind_statements hself resultHolds_none (Node.notMem_namesAll.1 hn)
  | program span ns =>
    exact blind_statements hself resultHolds_none (Node.notMem_namesAll.1 hn)
  | _ => exact .throw _

/-- Arguments that omit the name have values that omit it. -/
theorem blind_arguments {found : Array (Option Value)} (hfound : ∀ v ∈ found, OmitsResult x v)
    {ns : List Node} (hns : ∀ n ∈ ns, n.Omits x) :
    Blind x (fun vs => ∀ v ∈ vs, OmitsResult x v) (arguments self f found ns) := by
  induction ns generalizing found with
  | nil => exact .pure hfound
  | cons n ns ih =>
    obtain ⟨hn, hns⟩ := List.forall_mem_cons.1 hns
    rw [arguments]
    refine (hself (.expression n) f hn).bind fun v hv => ih (fun w hw => ?_) hns
    rcases Array.mem_push.1 hw with hw | rfl
    · exact hfound w hw
    · exact hv

/-- The body of the function that is called does not mention the name, and its frame is new. -/
theorem blind_apply (callee : Node) {function : Option Value} (hf : OmitsResult x function)
    {args : List (Option Value)} (hargs : ∀ v ∈ args, OmitsResult x v) :
    Blind x (OmitsResult x) (apply self span callee function args) := by
  unfold apply
  split
  · next c =>
    have hzip : ∀ b ∈ c.parameters.zip args, OmitsResult x b.2 :=
      fun b hb => hargs b.2 (List.of_mem_zip hb).2
    exact .ite (.throw _) ((Blind.enter ("call:" ++ callee.print) hzip).bind fun inner _ =>
      hself (.body c.body) inner (hf _ rfl))
  · exact .throw _

/-- An expression that omits the name is blind to it; a call goes on in a frame that may bind the
name. -/
theorem blind_expression {n : Node} (hn : n.Omits x) :
    Blind x (OmitsResult x) (expression self f n) := by
  cases n with
  | integer span n => exact .pure (resultHolds_some trivial)
  | identifier span name => exact .get (by simpa [Node.Omits, Node.names, eq_comm] using hn)
  | unary span operator a =>
    rw [expression]
    exact (hself (.expression a) f hn).bind fun _ _ => .ofOperation fun _ => unaryOperation_plain
  | binary span a operator b =>
    obtain ⟨ha, hb⟩ : a.Omits x ∧ b.Omits x := by simpa [Node.Omits, Node.names] using hn
    rw [expression]
    refine (hself (.expression a) f ha).bind fun _ _ => ?_
    refine (hself (.expression b) f hb).bind fun _ _ => ?_
    exact .ofOperation fun _ => binaryOperation_plain
  | conditional span c a b =>
    obtain ⟨hc, ha, hb⟩ : c.Omits x ∧ a.Omits x ∧ b.Omits x := by
      simpa [Node.Omits, Node.names] using hn
    rw [expression]
    refine (hself (.expression c) f hc).bind fun _ _ => .ite (blind_block hself ha) ?_
    exact .ite (.pure resultHolds_none) (blind_block hself hb)
  | function span params body =>
    have hbody : body.Omits x := fun h => hn (List.mem_append_right _ h)
    rw [expression]
    exact Blind.capture.bind fun captured _ => .pure (resultHolds_some hbody)
  | call span callee args =>
    obtain ⟨hcallee, hargs⟩ : callee.Omits x ∧ ∀ n ∈ args, n.Omits x := by
      rw [← Node.notMem_namesAll]
      simpa [Node.Omits, Node.names] using hn
    rw [expression]
    refine (hself (.expression callee) f hcallee).bind fun function hf => ?_
    refine (blind_arguments hself (by simp) hargs).bind fun values hvalues => ?_
    exact blind_apply hself callee hf fun v hv => hvalues v (Array.mem_toList_iff.1 hv)
  | _ => exact .throw _

/-- A statement that omits the name is blind to it. -/
theorem blind_statement (rounds : Nat) {n : Node} (hn : n.Omits x) :
    Blind x (OmitsResult x) (statement self f rounds n) := by
  cases n with
  | expression span e => exact hself (.expression e) f hn
  | declaration span name e =>
    obtain ⟨hname, he⟩ : x ≠ name.text ∧ e.Omits x := by
      simpa [Node.Omits, Node.names] using hn
    rw [statement]
    exact (hself (.expression e) f he).bind fun _ hv => .declare hname.symm hv
  | assignment span name e =>
    obtain ⟨hname, he⟩ : x ≠ name.text ∧ e.Omits x := by
      simpa [Node.Omits, Node.names] using hn
    rw [statement]
    exact (hself (.expression e) f he).bind fun _ hv => .assign hname.symm hv
  | block span ns => exact blind_statements hself resultHolds_none (Node.notMem_namesAll.1 hn)
  | whileLoop span c b =>
    obtain ⟨hc, hb⟩ : c.Omits x ∧ b.Omits x := by simpa [Node.Omits, Node.names] using hn
    exact .loop (hself (.expression c) f hc) (blind_block hself hb) resultHolds_none rounds
  | forLoop span i c p b =>
    obtain ⟨hi, hc, hp, hb⟩ : i.Omits x ∧ c.Omits x ∧ p.Omits x ∧ b.Omits x := by
      simpa [Node.Omits, Node.names] using hn
    rw [statement]
    refine (hself (.statement i) f hi).bind fun _ _ =>
      .loop (hself (.expression c) f hc) ?_ resultHolds_none rounds
    refine (blind_block hself hb).bind fun v hv => ?_
    exact (hself (.statement p) f hp).bind fun _ _ => .pure hv
  | _ => exact .throw _

end

end Run

open Run

/-- **What does not mention a name does not see it**, as long as no function mentions it. -/
theorem evalTask_blind (rounds depth : Nat) (task : Task) (f : FrameId) (ht : task.Omits x) :
    Blind x (OmitsResult x) (evalTask rounds depth task f) := by
  -- a body stands one level further in, the other two stand two levels further in
  induction depth using Nat.strongRecOn generalizing task f with
  | ind depth ih =>
    cases task with
    | body n =>
      rcases depth with _ | depth
      · exact .throw _
      · exact blind_block (ih depth (by omega)) ht
    | statement n =>
      rcases depth with _ | _ | depth
      · exact .throw _
      · exact .throw _
      · exact blind_statement (ih depth (by omega)) rounds ht
    | expression n =>
      rcases depth with _ | _ | depth
      · exact .throw _
      · exact .throw _
      · exact blind_expression (ih depth (by omega)) ht

/-- A program that does not mention the name does not see it. -/
theorem program_blind (rounds depth : Nat) (span : Option Span) {ns : List Node}
    (hns : ∀ n ∈ ns, n.Omits x) (f : FrameId) :
    Blind x (OmitsResult x) (evalNode rounds depth (.program span ns) f) :=
  blind_statements (evalTask_blind rounds depth) resultHolds_none hns

end Ember

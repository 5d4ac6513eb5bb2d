import Ember.Proofs.Eval.Path
import Ember.Proofs.Heap.Change

/-!
# Invariants of an evaluation

An evaluation that starts where all values in the cells have a property keeps it so when the
values that it makes have it too. `Run.Preserves V E x Q` says that it does for the property `V`
of values, that what it gives has `Q`, and that where it ends early the reason has `E`. It
carries over from one step to the next, and from the evaluation of what stands inside to the
rules that take no tree apart.
-/

namespace Ember

variable {V : Value → Prop}

/-- A result has the property if there is one. -/
abbrev ResultHolds (V : Value → Prop) (result : Option Value) : Prop :=
  ∀ v ∈ result, V v

theorem resultHolds_some {v : Value} (hv : V v) : ResultHolds V (some v) := by
  rintro w ⟨⟩
  exact hv

theorem resultHolds_none : ResultHolds V none := by
  rintro w ⟨⟩

/-! ## The heap -/

namespace Heap

variable {h : Heap} {f : FrameId} {name : String} {value : Option Value}

/-- All values in the cells have the property. -/
def Holds (V : Value → Prop) (h : Heap) : Prop :=
  ∀ c, ResultHolds V (h.content c)

/-- At the start no cell holds anything. -/
theorem holds_initial : initial.Holds V := by
  intro c v hv
  simp [initial, content] at hv

namespace Holds

/-- What holds of all values holds of them if it is weakened. -/
theorem mono {W : Value → Prop} (hh : h.Holds V) (hVW : ∀ v, V v → W v) : h.Holds W :=
  fun c v hv => hVW v (hh c v hv)

/-- A declaration keeps what holds of all values, if it holds of the new one. -/
theorem declare (hh : h.Holds V) (hv : ResultHolds V value) : (h.declare f name value).Holds V := by
  intro c v hc
  rw [content_declare] at hc
  split at hc
  · exact hv v hc
  · exact hh c v hc

/-- An assignment keeps what holds of all values, if it holds of the new one. -/
theorem assign (hh : h.Holds V) (hv : ResultHolds V value) : (h.assign f name value).Holds V := by
  rcases assign_cases h f name value with ⟨cell, -, he⟩ | he
  · rw [he]
    intro c v hc
    rw [content_write] at hc
    split at hc
    · exact hv v hc
    · exact hh c v hc
  · rw [he]
    exact hh.declare hv

/-- Bindings of good values keep what holds of all values. -/
theorem declareAll {bindings : List (String × Option Value)} (hh : h.Holds V)
    (hb : ∀ entry ∈ bindings, ResultHolds V entry.2) : (h.declareAll f bindings).Holds V := by
  induction bindings generalizing h with
  | nil => exact hh
  | cons entry rest ih =>
    rw [List.forall_mem_cons] at hb
    exact ih (hh.declare hb.1) hb.2

/-- What is found is a value of a cell, so it has what holds of all of them. -/
theorem lookup (hh : h.Holds V) (hg : h.get? f name = some value) : ResultHolds V value := by
  obtain ⟨c, -, rfl⟩ := Option.map_eq_some_iff.1 hg
  exact hh c

end Holds

end Heap

/-! ## Evaluations -/

namespace Run

variable {α β : Type} {E : EvalStop → Prop} {Q : α → Prop} {R : β → Prop} {f : FrameId}
  {name : String} {span : Option Span} {value : Option Value}

/-- From a heap whose values have the property `V` the evaluation comes to such a heap, with a
result that has `Q` or for a reason that has `E`. -/
def Preserves (V : Value → Prop) (E : EvalStop → Prop) (x : Run α) (Q : α → Prop) : Prop :=
  ∀ h : Heap, h.Holds V → match x h with
    | .ok a h' => Q a ∧ h'.Holds V
    | .error stop h' => E stop ∧ h'.Holds V

namespace Preserves

theorem pure {a : α} (ha : Q a) : Preserves V E (Pure.pure a) Q :=
  fun _ hh => ⟨ha, hh⟩

theorem throw {stop : EvalStop} (hs : E stop) : Preserves V E (MonadExcept.throw stop) Q :=
  fun _ hh => ⟨hs, hh⟩

/-- Evaluations in turn keep what each of them keeps. -/
theorem bind {x : Run α} {k : α → Run β} (hx : Preserves V E x Q)
    (hk : ∀ a, Q a → Preserves V E (k a) R) : Preserves V E (x >>= k) R := by
  intro h hh
  have hrun := hx h hh
  rw [bind_apply]
  cases hw : x h with
  | ok a h' =>
    rw [hw] at hrun
    exact hk a hrun.1 h' hrun.2
  | error stop h' =>
    rw [hw] at hrun
    exact hrun

/-- A name gives a value of a cell, or fails for being unbound. -/
theorem get (hs : E (.failed (.undefined name) span)) :
    Preserves V E (get f name span) (ResultHolds V) := by
  intro h hh
  rw [get_apply]
  cases hg : h.get? f name with
  | none => exact ⟨hs, hh⟩
  | some v => exact ⟨hh.lookup hg, hh⟩

/-- A declaration keeps the heap good and gives the value that it was given. -/
theorem declare (hv : ResultHolds V value) :
    Preserves V E (declare f name value) (ResultHolds V) :=
  fun _ hh => ⟨hv, hh.declare hv⟩

/-- An assignment keeps the heap good and gives the value that it was given. -/
theorem assign (hv : ResultHolds V value) : Preserves V E (assign f name value) (ResultHolds V) :=
  fun _ hh => ⟨hv, hh.assign hv⟩

/-- An operation is as good as its values and its failures. -/
theorem ofOperation {result : Except RuntimeCause Value} (hok : ∀ v, result = .ok v → V v)
    (herror : ∀ cause, result = .error cause → E (.failed cause span)) :
    Preserves V E (ofOperation span result) (ResultHolds V) := by
  cases result with
  | ok v => exact pure (resultHolds_some (hok v rfl))
  | error cause => exact throw (herror cause rfl)

/-- A loop keeps what its condition and its rounds keep, or is given up. -/
theorem loop {condition round : Run (Option Value)} {last : Option Value}
    (hc : Preserves V E condition (ResultHolds V)) (hr : Preserves V E round (ResultHolds V))
    (hl : ResultHolds V last) (hend : E (.fault .endless)) (n : Nat) :
    Preserves V E (loop condition round last n) (ResultHolds V) := by
  induction n generalizing last with
  | zero => exact throw hend
  | succ n ih =>
    rw [Run.loop]
    refine hc.bind fun v _ => ?_
    split
    · exact hr.bind fun w hw => ih hw
    · exact pure hl

/-! ### The rules over what stands inside -/

section

variable {self : Task → FrameId → Run (Option Value)} {T : Task → Prop}
  (hself : ∀ task f, T task → Preserves V E (self task f) (ResultHolds V))

include hself

/-- Statements keep what each of them keeps. -/
theorem statements {last : Option Value} {ns : List Node} (hl : ResultHolds V last)
    (hns : ∀ n ∈ ns, T (.statement n)) :
    Preserves V E (statements self f last ns) (ResultHolds V) := by
  induction ns generalizing last with
  | nil => exact pure hl
  | cons n ns ih =>
    rw [List.forall_mem_cons] at hns
    rw [Run.statements]
    exact (hself (.statement n) f hns.1).bind fun v hv => ih hv hns.2

/-- Arguments have good values if each of them does. -/
theorem arguments {found : Array (Option Value)} {ns : List Node}
    (hfound : ∀ v ∈ found, ResultHolds V v) (hns : ∀ n ∈ ns, T (.expression n)) :
    Preserves V E (arguments self f found ns) fun values => ∀ v ∈ values, ResultHolds V v := by
  induction ns generalizing found with
  | nil => exact pure hfound
  | cons n ns ih =>
    rw [List.forall_mem_cons] at hns
    rw [Run.arguments]
    refine (hself (.expression n) f hns.1).bind fun v hv => ih ?_ hns.2
    intro w hw
    rcases Array.mem_push.1 hw with hw | rfl
    · exact hfound w hw
    · exact hv

/-- A call keeps what the body of its function keeps, or fails for a wrong number of arguments or
for not being a function. -/
theorem apply {callee : Node} {function : Option Value} {args : List (Option Value)}
    (hbody : ∀ c, V (.function c) → T (.body c.body)) (hf : ResultHolds V function)
    (hargs : ∀ v ∈ args, ResultHolds V v)
    (harity : ∀ expected found, E (.failed (.arityMismatch expected found) span))
    (hcall : ∀ type, E (.failed (.notCallable type) span)) :
    Preserves V E (apply self span callee function args) (ResultHolds V) := by
  unfold Run.apply
  split
  · next c =>
    split
    · exact throw (harity _ _)
    · -- the function was a value before, so its body may be evaluated
      intro h hh
      refine hself (.body c.body) _ (hbody c (hf _ rfl)) _ (Heap.Holds.declareAll hh ?_)
      exact fun entry hentry => hargs _ (List.of_mem_zip hentry).2
  · exact throw (hcall _)

end

end Preserves

end Run

end Ember

import Ember.Proofs.Eval.Invariant
import Ember.Proofs.Eval.Operators

/-!
# Where functions come from

A function is made by an evaluation of a function literal, and by nothing else: it may be bound,
passed and given back, and stays the one that was made. `Heap.Chronicle` are the heaps that
evaluations lead to, with the functions made so far, one for each evaluation of a literal. Every
evaluation goes on from one chronicle to another (`evalUntil_records`), wherever it stops, and no
two functions of a chronicle have a frame in common (`Heap.Chronicle.accounts`).
-/

namespace Ember

/-- A function is one of those made; other values are not made by literals of functions. -/
def Value.MadeIn (made : List Closure) : Value → Prop
  | .function c => c ∈ made
  | .integer _ | .boolean _ => True

variable {made made₁ : List Closure}

/-- A function that was made stays so. -/
theorem Value.MadeIn.mono {v : Value} (hv : v.MadeIn made) (hle : made <+: made₁) :
    v.MadeIn made₁ := by
  cases v with
  | function c => exact hle.subset hv
  | _ => trivial

/-- Values that are no functions need not be made. -/
theorem Value.Plain.madeIn {v : Value} (hv : v.Plain) : v.MadeIn made := by
  cases v with
  | function c => cases hv
  | _ => trivial

/-- If the result is a function, it is one of those made. -/
abbrev ResultMade (made : List Closure) (result : Option Value) : Prop :=
  ResultHolds (Value.MadeIn made) result

theorem resultMade_mono {result : Option Value} (hr : ResultMade made result)
    (hle : made <+: made₁) : ResultMade made₁ result :=
  fun v hv => (hr v hv).mono hle

/-! ## Chronicles -/

namespace Heap

/-- The heaps that evaluations lead to, and the functions made on the way: one for each evaluation
of a function literal, in order. No other change makes a function, and only functions that are made
already are bound. -/
inductive Chronicle : List Closure → Heap → Prop
  | initial : Chronicle [] initial
  | literal {made : List Closure} {h h' : Heap} {self : Task → FrameId → Run (Option Value)}
      {f : FrameId} {span : Option Span} {parameters : List Name} {body : Node} {c : Closure} :
      Chronicle made h →
      Run.expression self f (.function span parameters body) h = .ok (some (.function c)) h' →
      Chronicle (made ++ [c]) h'
  | enclose {made : List Closure} {h : Heap} (f : FrameId) (name : String) : Chronicle made h →
      Chronicle made (h.enclose f name).2
  | declare {made : List Closure} {h : Heap} (f : FrameId) (name : String) {value : Option Value} :
      Chronicle made h → ResultMade made value → Chronicle made (h.declare f name value)
  | assign {made : List Closure} {h : Heap} (f : FrameId) (name : String) {value : Option Value} :
      Chronicle made h → ResultMade made value → Chronicle made (h.assign f name value)

/-- The list accounts for the functions of the heap: those that are bound are in it, and each in it
has a frame of its own. -/
structure Accounts (made : List Closure) (h : Heap) : Prop where
  held : h.Holds (Value.MadeIn made)
  frames : ∀ c ∈ made, c.frame < h.frames.size
  increasing : made.Pairwise (·.frame < ·.frame)

variable {h h' : Heap} {f : FrameId} {name : String} {value : Option Value} {c : Closure}

/-- An evaluation of a function literal makes a function with a new frame. -/
theorem expression_function {self : Task → FrameId → Run (Option Value)} {span : Option Span}
    {parameters : List Name} {body : Node}
    (hrun : Run.expression self f (.function span parameters body) h =
      .ok (some (.function c)) h') :
    c = ⟨parameters.map Name.text, body, h.frames.size⟩ ∧ h' = (h.capture f).2 := by
  cases hrun
  exact ⟨rfl, rfl⟩

/-- **The list of a chronicle accounts for the functions of its heap.** -/
theorem Chronicle.accounts (hc : Chronicle made h) : Accounts made h := by
  induction hc with
  | initial => exact ⟨holds_initial, nofun, .nil⟩
  | @literal made h h' self f span parameters body c _ hrun ih =>
    obtain ⟨rfl, rfl⟩ := expression_function hrun
    have hgrown : ∀ d ∈ made, d.frame < (h.capture f).2.frames.size := by
      intro d hd
      rw [capture, frames_addFrame]
      exact Nat.lt_succ_of_lt (ih.frames d hd)
    refine ⟨?_, ?_, ?_⟩
    · exact fun cell v hv => (ih.held cell v hv).mono (List.prefix_append _ _)
    · refine List.forall_mem_append.2 ⟨hgrown, List.forall_mem_singleton.2 ?_⟩
      rw [capture, frames_addFrame]
      exact Nat.lt_succ_self _
    · refine List.pairwise_append.2 ⟨ih.increasing, List.pairwise_singleton _ _, ?_⟩
      intro d hd e he
      rw [List.mem_singleton.1 he]
      exact ih.frames d hd
  | enclose f name _ ih =>
    refine ⟨ih.held, fun d hd => ?_, ih.increasing⟩
    rw [Heap.enclose, frames_addFrame]
    exact Nat.lt_succ_of_lt (ih.frames d hd)
  | declare f name _ hv ih =>
    refine ⟨ih.held.declare hv, fun d hd => ?_, ih.increasing⟩
    rw [frames_declare]
    exact ih.frames d hd
  | assign f name _ hv ih =>
    refine ⟨ih.held.assign hv, fun d hd => ?_, ih.increasing⟩
    rw [frames_assign]
    exact ih.frames d hd

/-- Parameters may be bound to values that were made. -/
theorem Chronicle.declareAll {bindings : List (String × Option Value)} (hc : Chronicle made h)
    (hb : ∀ entry ∈ bindings, ResultMade made entry.2) :
    Chronicle made (h.declareAll f bindings) := by
  induction bindings generalizing h with
  | nil => exact hc
  | cons entry rest ih =>
    rw [List.forall_mem_cons] at hb
    exact ih (.declare f entry.1 hc hb.1) hb.2

end Heap

open Heap (Chronicle)

/-! ## Evaluations -/

namespace Run

variable {α β : Type} {f : FrameId} {name : String} {span : Option Span} {value : Option Value}

/-- From a chronicle that goes on from the functions `made`, the evaluation comes to one that goes
on further. What it gives has `Q` there. -/
def Records (made : List Closure) (x : Run α) (Q : List Closure → α → Prop) : Prop :=
  ∀ made₁ h, made <+: made₁ → Chronicle made₁ h → ∃ made₂, made₁ <+: made₂ ∧
    Chronicle made₂ (x.after h) ∧ ∀ a h', x h = .ok a h' → Q made₂ a

/-- If it gives a function, that is one of those made by then. -/
abbrev ValueRecords (made : List Closure) (x : Run (Option Value)) : Prop :=
  Records made x ResultMade

variable {Q : List Closure → α → Prop} {R : List Closure → β → Prop}

namespace Records

/-- What records from some functions on does so from more of them. -/
theorem mono {x : Run α} (hx : Records made x Q) (hle : made <+: made₁) : Records made₁ x Q :=
  fun made₂ h hle₂ hc => hx made₂ h (hle.trans hle₂) hc

theorem pure {a : α} (ha : ∀ made₁, made <+: made₁ → Q made₁ a) :
    Records made (Pure.pure a) Q := by
  intro made₁ h hle hc
  refine ⟨made₁, List.prefix_refl _, hc, fun b h' hrun => ?_⟩
  cases hrun
  exact ha made₁ hle

theorem throw {stop : EvalStop} : Records made (MonadExcept.throw stop : Run α) Q :=
  fun made₁ _ _ hc => ⟨made₁, List.prefix_refl _, hc, nofun⟩

/-- Evaluations in turn record in turn, and the second one may use what the first one gave. -/
theorem bind {x : Run α} {k : α → Run β} (hx : Records made x Q)
    (hk : ∀ a made₁, made <+: made₁ → Q made₁ a → Records made₁ (k a) R) :
    Records made (x >>= k) R := by
  intro made₁ h hle hc
  obtain ⟨made₂, hle₂, hc₂, hq⟩ := hx made₁ h hle hc
  unfold after at hc₂ ⊢
  rw [bind_apply]
  cases hrun : x h with
  | error stop h' =>
    rw [hrun] at hc₂
    exact ⟨made₂, hle₂, hc₂, nofun⟩
  | ok a h' =>
    rw [hrun] at hc₂
    obtain ⟨made₃, hle₃, hc₃, hr⟩ :=
      hk a made₂ (hle.trans hle₂) (hq a h' hrun) made₂ h' (List.prefix_refl _) hc₂
    exact ⟨made₃, hle₂.trans hle₃, hc₃, hr⟩

theorem known (hv : ResultMade made value) : ValueRecords made (Pure.pure value) :=
  pure fun _ hle => resultMade_mono hv hle

/-- A name gives what is bound, so a function that was made. -/
theorem get : ValueRecords made (get f name span) := by
  intro made₁ h _ hc
  unfold after
  rw [get_apply]
  cases hg : h.get? f name with
  | none => exact ⟨made₁, List.prefix_refl _, hc, nofun⟩
  | some v =>
    refine ⟨made₁, List.prefix_refl _, hc, fun a h' hrun => ?_⟩
    cases hrun
    exact hc.accounts.held.lookup hg

/-- A declaration binds and gives a value that was made. -/
theorem declare (hv : ResultMade made value) : ValueRecords made (declare f name value) := by
  intro made₁ h hle hc
  have hv₁ := resultMade_mono hv hle
  refine ⟨made₁, List.prefix_refl _, .declare f name hc hv₁, fun a h' hrun => ?_⟩
  cases hrun
  exact hv₁

/-- An assignment binds and gives a value that was made. -/
theorem assign (hv : ResultMade made value) : ValueRecords made (assign f name value) := by
  intro made₁ h hle hc
  have hv₁ := resultMade_mono hv hle
  refine ⟨made₁, List.prefix_refl _, .assign f name hc hv₁, fun a h' hrun => ?_⟩
  cases hrun
  exact hv₁

/-- An operator gives no function. -/
theorem ofOperation {result : Except RuntimeCause Value} (hok : ∀ v, result = .ok v → v.Plain) :
    ValueRecords made (ofOperation span result) := by
  cases result with
  | ok v => exact known (resultHolds_some (hok v rfl).madeIn)
  | error cause => exact throw

/-- A loop records round by round. -/
theorem loop {condition round : Run (Option Value)} {last : Option Value}
    (hcondition : ValueRecords [] condition) (hround : ValueRecords [] round)
    (hlast : ResultMade made last) (n : Nat) :
    ValueRecords made (loop condition round last n) := by
  induction n generalizing made last with
  | zero => exact throw
  | succ n ih =>
    rw [Run.loop]
    refine (hcondition.mono (List.nil_prefix)).bind fun v made₁ hle _ => ?_
    split
    · exact (hround.mono List.nil_prefix).bind fun w made₂ _ hw => ih hw
    · exact known (resultMade_mono hlast hle)

end Records

/-! ### The rules over what stands inside -/

section

variable {self : Task → FrameId → Run (Option Value)}
  (hself : ∀ task f made, ValueRecords made (self task f))

include hself

/-- Statements record one after the other, and give the last value. -/
theorem records_statements {last : Option Value} {ns : List Node} (hl : ResultMade made last) :
    ValueRecords made (statements self f last ns) := by
  induction ns generalizing made last with
  | nil => exact .known hl
  | cons n ns ih =>
    rw [statements]
    exact (hself (.statement n) f made).bind fun v made₁ _ hv => ih hv

/-- A block records as its statements do. -/
theorem records_block {n : Node} : ValueRecords made (block self f n) := by
  unfold block
  split
  · exact records_statements hself resultHolds_none
  · exact .throw

/-- Arguments are functions made by then, or none. -/
theorem records_arguments {found : Array (Option Value)} {ns : List Node}
    (hfound : ∀ v ∈ found, ResultMade made v) :
    Records made (arguments self f found ns) fun made₁ values =>
      ∀ v ∈ values, ResultMade made₁ v := by
  induction ns generalizing made found with
  | nil => exact .pure fun _ hle v hv => resultMade_mono (hfound v hv) hle
  | cons n ns ih =>
    rw [arguments]
    refine (hself (.expression n) f made).bind fun v made₁ hle hv => ih fun w hw => ?_
    rcases Array.mem_push.1 hw with hw | rfl
    · exact resultMade_mono (hfound w hw) hle
    · exact hv

/-- A call binds arguments that were made, and its body records. -/
theorem records_apply {callee : Node} {function : Option Value} {args : List (Option Value)}
    (hargs : ∀ v ∈ args, ResultMade made v) :
    ValueRecords made (apply self span callee function args) := by
  unfold apply
  split
  · next c =>
    split
    · exact .throw
    · -- the call makes a frame and binds the arguments, all of which were made before
      intro made₁ h hle hc
      refine hself (.body c.body) _ made₁ made₁ _ (List.prefix_refl _) (.declareAll ?_ ?_)
      · exact .enclose c.frame _ hc
      · exact fun entry hentry => resultMade_mono (hargs _ (List.of_mem_zip hentry).2) hle
  · exact .throw

/-- An expression records; a function literal adds what it makes to the list. -/
theorem records_expression {n : Node} : ValueRecords made (expression self f n) := by
  cases n with
  | integer span value => exact .known (resultHolds_some trivial)
  | identifier span name => exact .get
  | unary span operator a =>
    rw [expression]
    refine (hself (.expression a) f made).bind fun v _ _ _ => ?_
    exact .ofOperation fun _ => unaryOperation_plain
  | binary span a operator b =>
    rw [expression]
    refine (hself (.expression a) f made).bind fun v made₁ _ _ => ?_
    refine (hself (.expression b) f made₁).bind fun w _ _ _ => ?_
    exact .ofOperation fun _ => binaryOperation_plain
  | conditional span c a b =>
    rw [expression]
    refine (hself (.expression c) f made).bind fun v _ _ _ => ?_
    split
    · exact records_block hself
    split
    · exact .known resultHolds_none
    · exact records_block hself
  | function span parameters body =>
    intro made₁ h hle hc
    have hrun : expression self f (.function span parameters body) h = _ := rfl
    have hliteral := Chronicle.literal hc hrun
    refine ⟨_, List.prefix_append _ _, hliteral, fun a h' hrun => ?_⟩
    cases hrun
    exact resultHolds_some (List.mem_append_right _ (List.mem_singleton_self _))
  | call span callee args =>
    rw [expression]
    refine (hself (.expression callee) f made).bind fun function made₁ _ _ => ?_
    refine (records_arguments hself (by simp)).bind fun values made₂ _ hvalues => ?_
    exact records_apply hself fun v hv => hvalues v (Array.mem_toList_iff.1 hv)
  | _ => exact .throw

/-- A statement records, whatever its loops do. -/
theorem records_statement {rounds : Nat} {n : Node} :
    ValueRecords made (statement self f rounds n) := by
  cases n with
  | expression span e => exact hself (.expression e) f made
  | declaration span x v =>
    rw [statement]
    exact (hself (.expression v) f made).bind fun _ _ _ hv => .declare hv
  | assignment span x v =>
    rw [statement]
    exact (hself (.expression v) f made).bind fun _ _ _ hv => .assign hv
  | block span ns => exact records_statements hself resultHolds_none
  | whileLoop span c b =>
    exact .loop (hself (.expression c) f []) (records_block hself) resultHolds_none rounds
  | forLoop span i c p b =>
    rw [statement]
    refine (hself (.statement i) f made).bind fun _ _ _ _ => ?_
    refine .loop (hself (.expression c) f []) ?_ resultHolds_none rounds
    refine (records_block hself).bind fun v made₁ _ hv => ?_
    exact (hself (.statement p) f made₁).bind fun _ _ hle _ => .known (resultMade_mono hv hle)
  | _ => exact .throw

end

/-- An evaluation that may be halted at its start still records. -/
theorem Records.haltAt {stop : Heap → Bool} {x : Run α} (hx : Records made x Q) :
    Records made (haltAt stop x) Q := by
  intro made₁ h hle hc
  unfold after Run.haltAt
  cases stop h with
  | true => exact ⟨made₁, List.prefix_refl _, hc, nofun⟩
  | false => exact hx made₁ h hle hc

end Run

open Run

/-- **Every evaluation goes on from one chronicle to another**, however deep it nests, and at
whatever point it stops. -/
theorem evalUntil_records (stop : Task → FrameId → Heap → Bool) (rounds : Nat) :
    ∀ (depth : Nat) (task : Task) (f : FrameId) (made : List Closure),
      ValueRecords made (evalUntil stop rounds depth task f)
  | depth + 1, .body _, _, _ => (records_block (evalUntil_records stop rounds depth)).haltAt
  | depth + 2, .statement _, _, _ =>
    (records_statement (evalUntil_records stop rounds depth)).haltAt
  | depth + 2, .expression _, _, _ =>
    (records_expression (evalUntil_records stop rounds depth)).haltAt
  | 0, _, _, _ | 1, .statement _, _, _ | 1, .expression _, _, _ => .throw

/-- **Every evaluation records**, by induction on its levels. -/
theorem evalTask_records (rounds depth : Nat) (task : Task) (f : FrameId) (made : List Closure) :
    ValueRecords made (evalTask rounds depth task f) := by
  rw [← evalUntil_never]
  exact evalUntil_records _ rounds depth task f made

/-- Every program records. -/
theorem program_records (rounds depth : Nat) (p : Program) (f : FrameId) (made : List Closure) :
    ValueRecords made (evalNode rounds depth p.toNode f) :=
  records_statements (evalTask_records rounds depth) resultHolds_none

end Ember

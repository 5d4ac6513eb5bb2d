import Ember.Proofs.Eval.Origin
import Ember.Proofs.Session.Ends

/-!
# Functions compare by origin

A session makes functions by evaluating function literals, and two of them are equal if they come
from one evaluation of one literal, and only then (`Heap.functions_by_origin`). That holds of the
functions that are bound, of those that a call gave, and of those that only the operands of an
expression have. Equality is an equivalence on all values, and comparing values for being equal or
unequal never fails.
-/

namespace Ember

/-! ## Equality of values -/

namespace Value

/-- The two values are equal to a program. -/
def Equal (a b : Value) : Prop :=
  binaryOperation "==" (some a) (some b) = .ok (.boolean true)

theorem equal_eq (a b : Value) :
    binaryOperation "==" (some a) (some b) = .ok (.boolean (a.same b)) := by
  cases a <;> cases b <;> rfl

theorem unequal_eq (a b : Value) :
    binaryOperation "!=" (some a) (some b) = .ok (.boolean (!a.same b)) := by
  cases a with
  | integer m =>
    cases b with
    | integer n => simp [binaryOperation, integerOperation, same]
    | _ => rfl
  | _ => cases b <;> rfl

/-- Values are equal exactly if they are the same. -/
theorem equal_iff {a b : Value} : a.Equal b ↔ a.same b = true := by
  rw [Equal, equal_eq]
  simp

/-- Functions are equal if they share the body and the frame. -/
theorem equal_function {c d : Closure} : Equal (.function c) (.function d) ↔
    c.body.erase = d.body.erase ∧ c.frame = d.frame := by
  rw [equal_iff]
  simp [same, Node.sameAs_iff]

/-- Equality is an equivalence of values. -/
theorem equal_equivalence : Equivalence Equal where
  refl a := by
    rw [equal_iff]
    cases a <;> simp [same, Node.sameAs_iff]
  symm {a b} h := by
    rw [equal_iff] at h ⊢
    cases a <;> cases b <;> simp_all [same, Node.sameAs_iff]
  trans {a b c} h h' := by
    rw [equal_iff] at h h' ⊢
    cases a <;> cases b <;> cases c <;> simp_all [same, Node.sameAs_iff]

end Value

namespace Heap

variable {made : List Closure} {h : Heap} {c d : Closure}

/-! ## The functions of a chronicle -/

/-- The functions of the heap are among those made, and two of those made are equal if they come
from one evaluation of a literal, and only then. They are then one and the same function: the frame
that a function was made with decides its body. -/
structure ByOrigin (made : List Closure) (h : Heap) : Prop where
  held : ∀ cell c, h.content cell = some (.function c) → c ∈ made
  equal_iff : ∀ (i j : Nat) (c d : Closure), made[i]? = some c → made[j]? = some d →
    (Value.Equal (.function c) (.function d) ↔ i = j)
  alike : ∀ c ∈ made, ∀ d ∈ made, Value.Equal (.function c) (.function d) → c = d

/-- No two functions were made with one frame. -/
theorem Accounts.index_eq (ha : Accounts made h) {i j : Nat} (hc : made[i]? = some c)
    (hd : made[j]? = some d) (hframe : c.frame = d.frame) : i = j := by
  obtain ⟨hi, rfl⟩ := List.getElem?_eq_some_iff.1 hc
  obtain ⟨hj, rfl⟩ := List.getElem?_eq_some_iff.1 hd
  have hincreasing := List.pairwise_iff_getElem.1 ha.increasing
  rcases Nat.lt_trichotomy i j with hlt | heq | hlt
  · exact absurd hframe (Nat.ne_of_lt (hincreasing i j hi hj hlt))
  · exact heq
  · exact absurd hframe (Nat.ne_of_gt (hincreasing j i hj hi hlt))

/-- The frame that a function was made with decides all of it. -/
theorem Accounts.eq_of_frame (ha : Accounts made h) (hc : c ∈ made) (hd : d ∈ made)
    (hframe : c.frame = d.frame) : c = d := by
  obtain ⟨i, hi⟩ := List.getElem?_of_mem hc
  obtain ⟨j, hj⟩ := List.getElem?_of_mem hd
  obtain rfl := ha.index_eq hi hj hframe
  exact Option.some.inj (hi.symm.trans hj)

/-- Functions are equal exactly if one evaluation of a literal made them. -/
theorem Accounts.equal_iff (ha : Accounts made h) {i j : Nat} (hc : made[i]? = some c)
    (hd : made[j]? = some d) : Value.Equal (.function c) (.function d) ↔ i = j := by
  rw [Value.equal_function]
  constructor
  · rintro ⟨-, hframe⟩
    exact ha.index_eq hc hd hframe
  · rintro rfl
    obtain rfl := Option.some.inj (hc.symm.trans hd)
    exact ⟨rfl, rfl⟩

/-- The values of a chronicle are equal by their origin. -/
theorem Chronicle.byOrigin (hc : Chronicle made h) : ByOrigin made h where
  held cell _ hcell := hc.accounts.held cell _ hcell
  equal_iff _ _ _ _ := hc.accounts.equal_iff
  alike _ hmem _ hmem' hequal :=
    hc.accounts.eq_of_frame hmem hmem' (Value.equal_function.1 hequal).2

/-- An equality between two functions holds if they come from one evaluation of a literal, and only
then. -/
theorem Chronicle.equality (hc : Chronicle made h) {rounds depth : Nat} {f : FrameId}
    {span : Option Span} {a b : Node} {h₁ h₂ : Heap}
    (ha : evalTask rounds depth (.expression a) f h = .ok (some (.function c)) h₁)
    (hb : evalTask rounds depth (.expression b) f h₁ = .ok (some (.function d)) h₂) :
    ∃ (made₂ : List Closure) (i j : Nat), made <+: made₂ ∧ Chronicle made₂ h₂ ∧
      made₂[i]? = some c ∧ made₂[j]? = some d ∧
      evalTask rounds (depth + 2) (.expression (.binary span a "==" b)) f h =
        .ok (some (.boolean (decide (i = j)))) h₂ := by
  obtain ⟨made₁, hle₁, hc₁, hleft⟩ :=
    evalTask_records rounds depth (.expression a) f made made h (List.prefix_refl _) hc
  rw [Run.after, ha] at hc₁
  obtain ⟨made₂, hle₂, hc₂, hright⟩ :=
    evalTask_records rounds depth (.expression b) f made₁ made₁ h₁ (List.prefix_refl _) hc₁
  rw [Run.after, hb] at hc₂
  have hmem : c ∈ made₂ := hle₂.subset (hleft _ _ ha _ rfl)
  obtain ⟨i, hi⟩ := List.getElem?_of_mem hmem
  obtain ⟨j, hj⟩ := List.getElem?_of_mem (hright _ _ hb _ rfl)
  refine ⟨made₂, i, j, hle₁.trans hle₂, hc₂, hi, hj, ?_⟩
  have hsame : (Value.function c).same (.function d) = decide (i = j) := by
    rw [Bool.eq_iff_iff, ← Value.equal_iff, decide_eq_true_iff]
    exact hc₂.accounts.equal_iff hi hj
  rw [evalTask, Run.expression, Run.bind_apply, ha]
  dsimp only
  rw [Run.bind_apply, hb]
  dsimp only
  rw [Value.equal_eq, hsame]
  rfl

/-! ## Sessions -/

/-- The value that a call gives, if it gives one. -/
def Evaluated.value? (e : Except Fault Evaluated) : Option Value :=
  (Evaluated.result e).toOption.bind Outcome.value?

/-- The heaps of a session, with the values that its calls gave. Each call may be in any frame, use
limits of its own, be refused, fail, or be given up after some rounds of a loop. -/
inductive Gave : List Value → Heap → Prop
  | initial : Gave [] initial
  | evaluate {given : List Value} {h : Heap} (f : FrameId) (s : Source) (limits : Limits)
      (rounds : Nat) : Gave given h →
      Gave (given ++ (Evaluated.value? (h.evaluate f s limits rounds).1).toList)
        (h.evaluate f s limits rounds).2

/-- Every run of a program goes on with the chronicle. -/
theorem run_records (hc : Chronicle made h) (f : FrameId) (p : Program) (limit : Int)
    (rounds : Nat) : ∃ made', made <+: made' ∧ Chronicle made' (h.run f p limit rounds).2 ∧
      ∀ o, (h.run f p limit rounds).1 = .ok o → ResultMade made' o.value? := by
  unfold run
  cases depthBudget limit with
  | error fault => exact ⟨made, List.prefix_refl _, hc, nofun⟩
  | ok depth =>
    obtain ⟨made', hle, hc', hgives⟩ :=
      program_records rounds depth p f made made h (List.prefix_refl _) hc
    dsimp only
    unfold Run.after at hc'
    cases hrun : evalNode rounds depth p.toNode f h with
    | ok v h' =>
      rw [hrun] at hc'
      refine ⟨made', hle, hc', fun o ho => ?_⟩
      cases ho
      exact hgives v h' hrun
    | error stop h' =>
      rw [hrun] at hc'
      refine ⟨made', hle, ?_, fun o ho => ?_⟩
      · cases stop <;> exact hc'
      · cases stop <;> cases ho <;> exact resultHolds_none

/-- Every evaluation of a source goes on with the chronicle. -/
theorem evaluate_records (hc : Chronicle made h) (f : FrameId) (s : Source) (limits : Limits)
    (rounds : Nat) : ∃ made', made <+: made' ∧ Chronicle made' (h.evaluate f s limits rounds).2 ∧
      ResultMade made' (Evaluated.value? (h.evaluate f s limits rounds).1) := by
  cases hparse : s.parse limits with
  | error fault =>
    rw [evaluate, hparse]
    exact ⟨made, List.prefix_refl _, hc, resultHolds_none⟩
  | ok p =>
    by_cases hp : p.problems = #[]
    · obtain ⟨made', hle, hc', hgives⟩ := run_records hc f p.program limits.depth rounds
      rw [evaluate_of_no_problems h f rounds hparse hp]
      refine ⟨made', hle, hc', ?_⟩
      change ResultMade made'
        (((h.run f p.program limits.depth rounds).1.map (Outcome.quoting s)).toOption.bind
          Outcome.value?)
      cases hrun : (h.run f p.program limits.depth rounds).1 with
      | error fault => exact resultHolds_none
      | ok o =>
        have hv := hgives o hrun
        cases o <;> exact hv
    · rw [evaluate_of_problems h f rounds hparse hp]
      exact ⟨made, List.prefix_refl _, hc, resultHolds_none⟩

/-- Each heap of a session has a chronicle, and the functions that calls gave are in it. -/
theorem Gave.chronicle {given : List Value} (hg : Gave given h) :
    ∃ made, Chronicle made h ∧ ∀ v ∈ given, v.MadeIn made := by
  induction hg with
  | initial => exact ⟨[], .initial, nofun⟩
  | @evaluate given h f s limits rounds _ ih =>
    obtain ⟨made, hc, hgiven⟩ := ih
    obtain ⟨made', hle, hc', hnew⟩ := evaluate_records hc f s limits rounds
    refine ⟨made', hc', List.forall_mem_append.2 ⟨?_, ?_⟩⟩
    · exact fun v hv => (hgiven v hv).mono hle
    · exact fun v hv => hnew v (Option.mem_toList.1 hv)

/-- **Functions compare by origin.** The functions that a session holds and those that its calls
gave were made by evaluations of function literals, and so were those of a heap and a result in the
middle of an evaluation. Functions that were made are equal if they come from one evaluation, and
only then, also as operands of an equality. Values can always be compared for being equal and
unequal, with opposite answers, and to be equal is an equivalence on all values. -/
theorem functions_by_origin :
    (∀ given h, Gave given h → ∃ made, Chronicle made h ∧
      ∀ c, Value.function c ∈ given → c ∈ made) ∧
    (∀ made h, Chronicle made h → ByOrigin made h ∧
      (∀ stop rounds depth task f, ∃ made', made <+: made' ∧
        Chronicle made' ((evalUntil stop rounds depth task f).after h) ∧
        ∀ c h', evalUntil stop rounds depth task f h = .ok (some (.function c)) h' → c ∈ made') ∧
      ∀ rounds depth f span a b c d h₁ h₂,
        evalTask rounds depth (.expression a) f h = .ok (some (.function c)) h₁ →
        evalTask rounds depth (.expression b) f h₁ = .ok (some (.function d)) h₂ →
        ∃ (made₂ : List Closure) (i j : Nat), made <+: made₂ ∧ Chronicle made₂ h₂ ∧
          made₂[i]? = some c ∧ made₂[j]? = some d ∧
          evalTask rounds (depth + 2) (.expression (.binary span a "==" b)) f h =
            .ok (some (.boolean (decide (i = j)))) h₂) ∧
    (∀ a b, ∃ t, binaryOperation "==" (some a) (some b) = .ok (.boolean t) ∧
      binaryOperation "!=" (some a) (some b) = .ok (.boolean (!t))) ∧
    Equivalence Value.Equal := by
  refine ⟨fun given h hg => ?_, fun made h hc => ⟨hc.byOrigin, ?_, ?_⟩, fun a b => ?_,
    Value.equal_equivalence⟩
  · obtain ⟨made, hc, hgiven⟩ := hg.chronicle
    exact ⟨made, hc, fun c hmem => hgiven _ hmem⟩
  · intro stop rounds depth task f
    obtain ⟨made', hle, hc', hgives⟩ :=
      evalUntil_records stop rounds depth task f made made h (List.prefix_refl _) hc
    exact ⟨made', hle, hc', fun c h' hrun => hgives _ h' hrun _ rfl⟩
  · intro rounds depth f span a b c d h₁ h₂ ha hb
    exact hc.equality ha hb
  · exact ⟨a.same b, Value.equal_eq a b, Value.unequal_eq a b⟩

/-- One function under two names, and another one with the same text. -/
def sharedFunction : Source :=
  { text := "let f = function() \x7b1\x7d; let g = f; let h = function() \x7b1\x7d;" }

/-- The heap with the functions. -/
def withShared : Heap :=
  (initial.evaluate globalFrame sharedFunction {} 0).2

/-- The frame that tells a function apart. -/
def functionFrame? : Option Value → Option FrameId
  | some (.function c) => some c.frame
  | _ => none

/-- What has the frame of a function is a function with that frame. -/
theorem exists_function {v : Option Value} {f : FrameId} (hv : functionFrame? v = some f) :
    ∃ c, v = some (.function c) ∧ c.frame = f := by
  unfold functionFrame? at hv
  split at hv
  · exact ⟨_, rfl, Option.some.inj hv⟩
  · cases hv

/-- Two names for one function, and a second function of the same text. -/
theorem functions_by_origin_shared : ∃ made c d e, Chronicle made withShared ∧
    withShared.content 0 = some (.function c) ∧ withShared.content 1 = some (.function d) ∧
    withShared.content 2 = some (.function e) ∧ c = d ∧
    ∃ i j : Nat, made[i]? = some c ∧ made[j]? = some e ∧ i ≠ j := by
  obtain ⟨c, hc, hc₁⟩ := exists_function (v := withShared.content 0) (f := 1) (by decide +kernel)
  obtain ⟨d, hd, hd₁⟩ := exists_function (v := withShared.content 1) (f := 1) (by decide +kernel)
  obtain ⟨e, he, he₂⟩ := exists_function (v := withShared.content 2) (f := 2) (by decide +kernel)
  obtain ⟨hsession, hmade, -⟩ := functions_by_origin
  obtain ⟨made, hchronicle, -⟩ :=
    hsession _ withShared (.evaluate globalFrame sharedFunction {} 0 .initial)
  obtain ⟨horigin, -⟩ := hmade made withShared hchronicle
  have hcm := horigin.held 0 c hc
  have hdm := horigin.held 1 d hd
  obtain ⟨i, hi⟩ := List.getElem?_of_mem hcm
  obtain ⟨j, hj⟩ := List.getElem?_of_mem (horigin.held 2 e he)
  have hother : ¬ Value.Equal (.function c) (.function e) := by
    intro hequal
    have hframe : c.frame = e.frame := (Value.equal_function.1 hequal).2
    rw [hc₁, he₂] at hframe
    exact absurd hframe (by decide)
  refine ⟨made, c, d, e, hchronicle, hc, hd, he, ?_, i, j, hi, hj, ?_⟩
  · exact hchronicle.accounts.eq_of_frame hcm hdm (hc₁.trans hd₁.symm)
  · exact fun hsame => hother ((horigin.equal_iff i j c e hi hj).2 hsame)

end Heap

end Ember

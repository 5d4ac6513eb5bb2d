import Ember.Proofs.Eval.Bounds
import Ember.Proofs.Eval.Sequence

/-!
# Counting loops

A counting loop does what its first clause does and then a loop with the same condition does whose
body ends with the last clause: both change the heap in the same way, fail at the same place, or go
on for ever (`forLoop_like_while`). They differ in the value only. That of a counting loop is the
value of its body in the last round, whatever the clauses come to.
-/

namespace Ember

namespace Run

variable {α β : Type}

/-- The evaluation without its result: what is left is how it ends, and the heap. -/
def effect (x : Run α) : Run Unit := do
  let _ ← x
  return ()

/-- The rounds of a loop that comes to its end, with the values of the body in their order. In each
of them the condition holds, and the body and then the last clause come to their ends. -/
inductive Turns (condition body post : Run (Option Value)) :
    Heap → List (Option Value) → Heap → Prop
  | stop {h h' : Heap} {c : Option Value} :
      condition h = .ok c h' → holds c = false → Turns condition body post h [] h'
  | turn {h h₁ h₂ h₃ h' : Heap} {c v w : Option Value} {vs : List (Option Value)} :
      condition h = .ok c h₁ → holds c = true → body h₁ = .ok v h₂ → post h₂ = .ok w h₃ →
      Turns condition body post h₃ vs h' → Turns condition body post h (v :: vs) h'

/-! ## Effects -/

theorem effect_apply (x : Run α) (h : Heap) :
    x.effect h = match x h with
      | .ok _ h' => .ok () h'
      | .error stop h' => .error stop h' :=
  bind_apply x (fun _ => pure ()) h

theorem effect_bind (x : Run α) (k : α → Run β) :
    effect (x >>= k) = x >>= fun a => effect (k a) := by
  unfold effect
  exact bind_assoc x k _

/-- Where nothing looks at the result, the effect is all that counts. -/
theorem bind_effect_congr {x y : Run α} (hxy : x.effect = y.effect) (k : Run β) :
    (x >>= fun _ => k) = y >>= fun _ => k := by
  have hleft : (x >>= fun _ => k) = x.effect >>= fun _ => k := by
    rw [effect, bind_assoc]
    rfl
  have hright : (y >>= fun _ => k) = y.effect >>= fun _ => k := by
    rw [effect, bind_assoc]
    rfl
  rw [hleft, hright, hxy]

/-- The effect of a loop hangs on the effect of its rounds only, not on their values. -/
theorem loop_effect_congr (condition : Run (Option Value)) {round round' : Run (Option Value)}
    (hround : round.effect = round'.effect) (v w : Option Value) (n : Nat) :
    (loop condition round v n).effect = (loop condition round' w n).effect := by
  induction n generalizing v w with
  | zero => rfl
  | succ n ih =>
    have hnext : ∀ c : Option Value,
        (if holds c then round >>= fun a => loop condition round a n else return v).effect =
          (if holds c then round' >>= fun a => loop condition round' a n else return w).effect := by
      intro c
      by_cases hc : holds c = true
      · rw [if_pos hc, if_pos hc, effect_bind, effect_bind]
        have hleft : (fun a => (loop condition round a n).effect) =
            fun _ => (loop condition round none n).effect := by
          funext a
          rw [ih a none, ← ih none none]
        have hright : (fun a => (loop condition round' a n).effect) =
            fun _ => (loop condition round none n).effect := by
          funext a
          exact (ih none a).symm
        rw [hleft, hright]
        exact bind_effect_congr hround _
      · rw [if_neg hc, if_neg hc]
        rfl
    rw [loop, loop, effect_bind, effect_bind]
    exact congrArg (condition >>= ·) (funext hnext)

theorem Extends.effect {stop : EvalStop} {x y : Run α} (h : Extends stop x y) :
    Extends stop x.effect y.effect :=
  h.bind fun _ => .refl _

/-- An evaluation ends early exactly when its effect does. -/
theorem effect_error_iff {x : Run α} {h g : Heap} {stop : EvalStop} :
    x.effect h = .error stop g ↔ x h = .error stop g := by
  rw [effect_apply]
  cases x h <;> simp

/-! ## Rounds -/

/-- A round of a counting loop: its value is that of the body. -/
def countingRound (body post : Run (Option Value)) : Run (Option Value) := do
  let value ← body
  let _ ← post
  return value

variable {condition body post : Run (Option Value)} {h h' : Heap} {vs : List (Option Value)}
  {v last : Option Value} {n : Nat}

theorem Turns.loop_eq (ht : Turns condition body post h vs h') (hn : vs.length < n)
    (last : Option Value) :
    loop condition (countingRound body post) last n h = .ok (vs.getLastD last) h' := by
  induction ht generalizing n last with
  | stop hc hholds =>
    obtain ⟨n, rfl⟩ := Nat.exists_eq_add_of_lt hn
    rw [loop, bind_apply, hc]
    dsimp only
    rw [if_neg (by rw [hholds]; exact Bool.false_ne_true)]
    rfl
  | @turn h h₁ h₂ h₃ h' c v w vs hc hholds hbody hpost _ ih =>
    obtain ⟨n, rfl⟩ : ∃ m, n = m + 1 := ⟨n - 1, by omega⟩
    have hround : countingRound body post h₁ = .ok v h₃ := by
      rw [countingRound, bind_apply, hbody]
      dsimp only
      rw [bind_apply, hpost]
      rfl
    have hlength : vs.length < n := by
      rw [List.length_cons] at hn
      omega
    rw [loop, bind_apply, hc]
    dsimp only
    rw [if_pos hholds, bind_apply, hround, List.getLastD_cons]
    exact ih hlength v

/-- A loop that comes to its end has come there in rounds, fewer than it may make. -/
theorem exists_turns
    (hrun : loop condition (countingRound body post) last n h = .ok v h') :
    ∃ vs, vs.length < n ∧ Turns condition body post h vs h' := by
  induction n generalizing h last with
  | zero => cases hrun
  | succ n ih =>
    rw [loop, bind_apply] at hrun
    cases hc : condition h with
    | error stop h₁ =>
      rw [hc] at hrun
      cases hrun
    | ok c h₁ =>
      rw [hc] at hrun
      dsimp only at hrun
      by_cases hholds : holds c = true
      · rw [if_pos hholds, countingRound, bind_assoc, bind_apply] at hrun
        cases hbody : body h₁ with
        | error stop h₂ =>
          rw [hbody] at hrun
          cases hrun
        | ok w h₂ =>
          rw [hbody] at hrun
          dsimp only at hrun
          rw [bind_assoc, bind_apply] at hrun
          cases hpost : post h₂ with
          | error stop h₃ =>
            rw [hpost] at hrun
            cases hrun
          | ok u h₃ =>
            rw [hpost] at hrun
            obtain ⟨vs, hlength, hturns⟩ := ih hrun
            have hmore : (w :: vs).length < n + 1 := by
              rw [List.length_cons]
              omega
            exact ⟨w :: vs, hmore, .turn hc hholds hbody hpost hturns⟩
      · rw [if_neg hholds] at hrun
        cases hrun
        exact ⟨[], Nat.succ_pos n, .stop hc (Bool.eq_false_iff.2 hholds)⟩

/-- **The value of a counting loop is that of its body in the last round.** -/
theorem loop_ok_iff :
    loop condition (countingRound body post) last n h = .ok v h' ↔
      ∃ vs, vs.length < n ∧ Turns condition body post h vs h' ∧ v = vs.getLastD last := by
  constructor
  · intro hrun
    obtain ⟨vs, hlength, hturns⟩ := exists_turns hrun
    have hvalue := hturns.loop_eq hlength last
    rw [hrun] at hvalue
    cases hvalue
    exact ⟨vs, hlength, hturns, rfl⟩
  · rintro ⟨vs, hlength, hturns, rfl⟩
    exact hturns.loop_eq hlength last

/-! ## The clauses and the body -/

section

variable (self : Task → FrameId → Run (Option Value)) (f : FrameId)

/-- A body that ends with the last clause has the effect of the body and then of the clause. -/
theorem round_effect (ns : List Node) (post : Node) :
    (countingRound (statements self f none ns) (self (.statement post) f)).effect =
      (statements self f none (ns ++ [post])).effect := by
  rw [statements_append, countingRound, effect_bind, effect_bind]
  refine congrArg (statements self f none ns >>= ·) (funext fun v => ?_)
  rw [effect_bind, statements, effect_bind]
  rfl

/-- A counting loop has the effect of its first clause and then of the other loop. -/
theorem forLoop_effect (rounds : Nat) (s s' b b' : Option Span) (init condition post : Node)
    (ns : List Node) :
    (statement self f rounds (.forLoop s init condition post (.block b ns))).effect =
      (do let _ ← self (.statement init) f
          statement self f rounds (.whileLoop s' condition (.block b' (ns ++ [post])))).effect := by
  have hcounting : statement self f rounds (.forLoop s init condition post (.block b ns)) =
      (do let _ ← self (.statement init) f
          loop (self (.expression condition) f)
            (countingRound (statements self f none ns) (self (.statement post) f)) none rounds) :=
    rfl
  rw [hcounting, effect_bind, effect_bind]
  refine congrArg (self (.statement init) f >>= ·) (funext fun _ => ?_)
  exact loop_effect_congr _ (round_effect self f ns post) none none rounds

end

end Run

open Run Heap

/-- A first clause and then a loop. What stands inside the loop has levels of its own. -/
def clauseThenLoop (rounds clauseDepth loopDepth : Nat) (init loop : Node) (f : FrameId) :
    Run (Option Value) := do
  let _ ← evalTask rounds clauseDepth (.statement init) f
  statement (evalTask rounds loopDepth) f rounds loop

variable {rounds depth depth' inside : Nat} {f : FrameId} {h : Heap}

/-- With more levels they do the same, unless they were given up. -/
theorem clauseThenLoop_extends (rounds : Nat) (f : FrameId) (hclause : depth ≤ inside)
    (hloop : depth' ≤ inside) (init loop : Node) :
    Extends .tooDeep (clauseThenLoop rounds depth depth' init loop f)
      (clauseThenLoop rounds inside inside init loop f) := by
  have hrounds : Raised (.fault .endless) .tooDeep rounds rounds := .inl rfl
  have hinit := evalTask_extends hrounds (.inr ⟨hclause, rfl⟩) (.statement init) f
  have hself := evalTask_extends hrounds (.inr ⟨hloop, rfl⟩)
  exact hinit.bind fun _ => extends_statement hself hrounds loop

theorem statements_pair (first second : Node) :
    statements (evalTask rounds (depth + 2)) f none [first, second] =
      clauseThenLoop rounds (depth + 2) depth first second f := by
  unfold clauseThenLoop
  refine congrArg (evalTask rounds (depth + 2) (.statement first) f >>= ·) (funext fun v => ?_)
  exact bind_pure _

/-- Whatever levels a counting loop and the two statements have, if neither is given up for them,
both have the same effect. -/
theorem forLoop_effect_cases (rounds depth depth' : Nat) (s s' b b' : Option Span)
    (init condition post : Node) (ns : List Node) (f : FrameId) (h : Heap) :
    let counting :=
      evalTask rounds depth (.statement (.forLoop s init condition post (.block b ns))) f
    let inTurn := statements (evalTask rounds depth') f none
      [init, .whileLoop s' condition (.block b' (ns ++ [post]))]
    (∃ g, counting h = .error .tooDeep g) ∨ (∃ g, inTurn h = .error .tooDeep g) ∨
      counting.effect h = inTurn.effect h := by
  intro counting inTurn
  rcases depth with _ | _ | depth
  · exact .inl ⟨h, rfl⟩
  · exact .inl ⟨h, rfl⟩
  rcases depth' with _ | _ | depth'
  · exact .inr (.inl ⟨h, rfl⟩)
  · exact .inr (.inl ⟨h, rfl⟩)
  let loop := Node.whileLoop s' condition (.block b' (ns ++ [post]))
  -- both are the same two steps, and with more levels they come to the same
  let inside := max depth (depth' + 2)
  have hcounting : counting.effect = (clauseThenLoop rounds depth depth init loop f).effect :=
    forLoop_effect _ f rounds s s' b b' init condition post ns
  have hinTurn : inTurn = clauseThenLoop rounds (depth' + 2) depth' init loop f :=
    statements_pair init loop
  have hleft := (clauseThenLoop_extends rounds f (by omega : depth ≤ inside)
    (by omega : depth ≤ inside) init loop).effect h
  have hright := (clauseThenLoop_extends rounds f (by omega : depth' + 2 ≤ inside)
    (by omega : depth' ≤ inside) init loop).effect h
  rw [← hcounting] at hleft
  rw [← hinTurn] at hright
  rcases hleft with ⟨g, hdeep⟩ | hleft
  · exact .inl ⟨g, effect_error_iff.1 hdeep⟩
  rcases hright with ⟨g, hdeep⟩ | hright
  · exact .inr (.inl ⟨g, effect_error_iff.1 hdeep⟩)
  · exact .inr (.inr (hleft.symm.trans hright))

/-- **A counting loop does what its first clause does and then a loop whose body ends with the last
clause.** Whatever levels of nesting both have, and however many rounds a loop may make: if neither
is given up for the levels, both come to their end or end early for the same reason, and leave the
same heap behind. So one of them goes on for ever exactly when the other does. A counting loop that
comes to its end has the value of its body in the last round, and none if there was no round. -/
theorem forLoop_like_while (depth depth' : Nat) (s s' b b' : Option Span)
    (init condition post : Node) (ns : List Node) (f : FrameId) (h : Heap) :
    let counting rounds :=
      evalTask rounds (depth + 2) (.statement (.forLoop s init condition post (.block b ns))) f
    let inTurn rounds := statements (evalTask rounds depth') f none
      [init, .whileLoop s' condition (.block b' (ns ++ [post]))]
    (∀ rounds, (∃ g, counting rounds h = .error .tooDeep g) ∨
      (∃ g, inTurn rounds h = .error .tooDeep g) ∨
      (counting rounds).effect h = (inTurn rounds).effect h) ∧
    ((∀ rounds g, counting rounds h ≠ .error .tooDeep g ∧ inTurn rounds h ≠ .error .tooDeep g) →
      ((∀ rounds, ∃ g, counting rounds h = .error (.fault .endless) g) ↔
        ∀ rounds, ∃ g, inTurn rounds h = .error (.fault .endless) g)) ∧
    ∀ rounds v g, counting rounds h = .ok v g ↔
      ∃ w h₁ vs, evalTask rounds depth (.statement init) f h = .ok w h₁ ∧ vs.length < rounds ∧
        Turns (evalTask rounds depth (.expression condition) f)
          (statements (evalTask rounds depth) f none ns)
          (evalTask rounds depth (.statement post) f) h₁ vs g ∧
        v = vs.getLastD none := by
  intro counting inTurn
  have hcases : ∀ rounds, (∃ g, counting rounds h = .error .tooDeep g) ∨
      (∃ g, inTurn rounds h = .error .tooDeep g) ∨
      (counting rounds).effect h = (inTurn rounds).effect h := fun rounds =>
    forLoop_effect_cases rounds (depth + 2) depth' s s' b b' init condition post ns f h
  refine ⟨hcases, fun hlevels => forall_congr' fun rounds => ?_, fun rounds v g => ?_⟩
  · rcases hcases rounds with ⟨g, hdeep⟩ | ⟨g, hdeep⟩ | heffect
    · exact absurd hdeep (hlevels rounds g).1
    · exact absurd hdeep (hlevels rounds g).2
    · refine exists_congr fun g => ?_
      rw [← effect_error_iff, heffect, effect_error_iff]
  · have hcounting : counting rounds = (do
        let _ ← evalTask rounds depth (.statement init) f
        loop (evalTask rounds depth (.expression condition) f)
          (countingRound (statements (evalTask rounds depth) f none ns)
            (evalTask rounds depth (.statement post) f)) none rounds) := rfl
    rw [hcounting, bind_apply]
    cases hinit : evalTask rounds depth (.statement init) f h with
    | error stop h₁ => simp
    | ok w h₁ =>
      dsimp only
      rw [loop_ok_iff]
      constructor
      · rintro ⟨vs, hlength, hturns, hv⟩
        exact ⟨w, h₁, vs, rfl, hlength, hturns, hv⟩
      · rintro ⟨w', h₁', vs, hsame, hlength, hturns, hv⟩
        cases hsame
        exact ⟨vs, hlength, hturns, hv⟩

/-- A loop that counts `i` down from 2, with `i` as its body, makes two rounds. Its value is 1, that
of the body in the second round, where the last clause comes to 0. -/
theorem forLoop_like_while_countdown :
    let name : Name := ⟨"i", none⟩
    let i : Node := .identifier none "i"
    let init : Node := .declaration none name (.integer none 2)
    let post : Node := .assignment none name (.binary none i "-" (.integer none 1))
    let counting rounds := evalTask rounds 8
      (.statement (.forLoop none init i post (.block none [.expression none i]))) globalFrame
    let inTurn rounds := statements (evalTask rounds 9) globalFrame none
      [init, .whileLoop none i (.block none ([.expression none i] ++ [post]))]
    (∀ rounds g, counting rounds initial ≠ .error .tooDeep g ∧
      inTurn rounds initial ≠ .error .tooDeep g) ∧
    ((∀ rounds, ∃ g, counting rounds initial = .error (.fault .endless) g) ↔
      ∀ rounds, ∃ g, inTurn rounds initial = .error (.fault .endless) g) ∧
    (counting 3).effect initial = (inTurn 3).effect initial ∧
    ∃ w h₁ vs g, evalTask 3 6 (.statement init) globalFrame initial = .ok w h₁ ∧ vs.length < 3 ∧
      Turns (evalTask 3 6 (.expression i) globalFrame)
        (statements (evalTask 3 6) globalFrame none [.expression none i])
        (evalTask 3 6 (.statement post) globalFrame) h₁ vs g ∧
      some (.integer 1) = vs.getLastD none := by
  intro name i init post counting inTurn
  have hlevels : ∀ rounds g, counting rounds initial ≠ .error .tooDeep g ∧
      inTurn rounds initial ≠ .error .tooDeep g := by
    intro rounds g
    match rounds with
    | 0 | 1 | 2 => exact ⟨nofun, nofun⟩
    | _ + 3 => exact ⟨nofun, nofun⟩
  obtain ⟨hcases, hendless, hvalue⟩ := forLoop_like_while 6 9 none none none none init i post
    [.expression none i] globalFrame initial
  refine ⟨hlevels, hendless hlevels, ?_, ?_⟩
  · rcases hcases 3 with ⟨g, hdeep⟩ | ⟨g, hdeep⟩ | heffect
    · exact absurd hdeep (hlevels 3 g).1
    · exact absurd hdeep (hlevels 3 g).2
    · exact heffect
  · obtain ⟨g, hrun⟩ : ∃ g, counting 3 initial = .ok (some (.integer 1)) g := ⟨_, rfl⟩
    obtain ⟨w, h₁, vs, hinit, hlength, hturns, hv⟩ := (hvalue 3 _ g).1 hrun
    exact ⟨w, h₁, vs, g, hinit, hlength, hturns, hv⟩

end Ember

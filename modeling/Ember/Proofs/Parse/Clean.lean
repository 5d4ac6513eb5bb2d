import Ember.Proofs.Parse.Path

/-!
# Steps that find no problem

A step is clean at a window when it is not given up and notes no problem. Since
problems are never taken back, a sequence is clean exactly when its parts are
(`clean_bind`), so what a rule does when it is clean can be read off the rule.
-/

namespace Ember

namespace Parser

variable {α β : Type} {w w' : Window}

/-! ## Clean steps -/

/-- The step comes from `w` to `w'` with result `a` and without a new problem. -/
def Clean (x : Parser α) (w : Window) (a : α) (w' : Window) : Prop :=
  x w = .ok a w' ∧ w'.problems = w.problems

/-- A step that gives something leads to its window. -/
theorem leads_of_ok {x : Parser α} [h : Along Window.Leads x] {a : α} (hx : x w = .ok a w') :
    w.Leads none w' := by
  have hrun := h.run w
  unfold RunsAlong stop? after at hrun
  rw [hx] at hrun
  exact hrun

/-- A step that gives the parse up leads to its window. -/
theorem leads_of_error {x : Parser α} [h : Along Window.Leads x] {stop : ParseStop}
    (hx : x w = .error stop w') : w.Leads (some stop) w' := by
  have hrun := h.run w
  unfold RunsAlong stop? after at hrun
  rw [hx] at hrun
  exact hrun

/-- A clean step does not lose the end of the text. -/
theorem Clean.ended {x : Parser α} [Along Window.Leads x] {a : α} (h : Clean x w a w')
    (hw : w.Ended) : w'.Ended :=
  hw.of_suffix (leads_of_ok h.1).tokens

/-- A sequence of steps is clean exactly when each of them is: a problem of the
first would still be there at the end. -/
theorem clean_bind {x : Parser α} {f : α → Parser β} [Along Window.Leads x]
    [∀ a, Along Window.Leads (f a)] {b : β} :
    Clean (x >>= f) w b w' ↔ ∃ a w₁, Clean x w a w₁ ∧ Clean (f a) w₁ b w' := by
  constructor
  · rintro ⟨h, hp⟩
    rw [bind_apply] at h
    cases hx : x w with
    | error stop w₁ =>
      rw [hx] at h
      exact absurd h (by simp)
    | ok a w₁ =>
      rw [hx] at h
      -- the problems in between are caught between equal ends
      have h₁ := (leads_of_ok hx).problems
      have h₂ := (leads_of_ok h).problems
      rw [hp] at h₂
      have he : w₁.problems = w.problems :=
        Array.toList_inj.1 (h₂.eq_of_length_le h₁.length_le)
      exact ⟨a, w₁, ⟨hx, he⟩, h, by rw [hp, he]⟩
  · rintro ⟨a, w₁, ⟨hx, hp⟩, h, hp'⟩
    exact ⟨by rw [bind_apply, hx]; exact h, by rw [hp', hp]⟩

theorem clean_pure {a b : α} : Clean (pure a) w b w' ↔ b = a ∧ w' = w := by
  constructor
  · rintro ⟨h, -⟩
    rw [pure_apply] at h
    injection h with h₁ h₂
    exact ⟨h₁.symm, h₂.symm⟩
  · rintro ⟨rfl, rfl⟩
    exact ⟨rfl, rfl⟩

theorem clean_current_bind {f : Token → Parser α} {a : α} :
    Clean (current >>= f) w a w' ↔ Clean (f w.current) w a w' := Iff.rfl

theorem clean_next_bind {f : Token → Parser α} {a : α} :
    Clean (next >>= f) w a w' ↔ Clean (f w.next) w a w' := Iff.rfl

/-- A move is clean. -/
theorem clean_advance_bind {f : Unit → Parser α} {a : α} :
    Clean (advance >>= f) w a w' ↔ Clean (f ()) w.advance a w' := by
  unfold Clean
  rw [Window.advance_problems]
  exact Iff.rfl

theorem clean_nextIs_bind {kind : Kind} {f : Bool → Parser α} {a : α} :
    Clean (nextIs kind >>= f) w a w' ↔ Clean (f (decide (w.next.kind = kind))) w a w' := Iff.rfl

theorem clean_remaining_bind {f : Nat → Parser α} {a : α} :
    Clean (remaining >>= f) w a w' ↔ Clean (f w.ahead.length) w a w' := Iff.rfl

theorem clean_spanFrom_bind {first : Token} {f : Span → Parser α} {a : α} :
    Clean (spanFrom first >>= f) w a w' ↔
      Clean (f ⟨first.span.start, w.current.span.stop⟩) w a w' := Iff.rfl

theorem clean_spanOver_bind {n : Node} {f : Span → Parser α} {a : α} :
    Clean (spanOver n >>= f) w a w' ↔
      Clean (f ⟨(n.span?.getD w.current.span).start, w.current.span.stop⟩) w a w' := Iff.rfl

/-- A step that notes a problem is not clean, whatever follows. -/
theorem not_clean_note_bind {cause : SyntaxCause} {token quoted : Token} {f : Unit → Parser α}
    {a : α} [∀ u, Along Window.Leads (f u)] :
    ¬ Clean (modify (·.note cause token quoted) >>= f) w a w' := by
  rintro ⟨h, hp⟩
  rw [bind_apply, modify_apply] at h
  -- there is one problem more than before, whatever follows
  have hl := (leads_of_ok (x := f ()) h).problems.length_le
  rw [hp] at hl
  simp only [Window.note, Array.toList_push, List.length_append, List.length_singleton] at hl
  omega

theorem not_clean_throw {stop : ParseStop} {a : α} : ¬ Clean (throw stop : Parser α) w a w' := by
  rintro ⟨h, -⟩
  exact absurd h (by simp)

/-- The token that has to be there is there in a clean step. -/
theorem clean_past {kind : Kind} {more : Parser Node} {n : Node} :
    Clean (past kind more) w n w' ↔ w.next.kind = kind ∧ Clean more w.advance n w' := by
  unfold Clean
  rw [past_apply, Window.advance_problems]
  by_cases h : w.next.kind = kind
  · simp [h]
  · simp only [h, if_false, false_and, iff_false, not_and]
    rintro he
    injection he with _ he
    simp [← he, Window.note]

/-- A token that is expected is there in a clean step. -/
theorem clean_expect_bind {kind : Kind} {f : Bool → Parser α} [∀ b, Along Window.Leads (f b)]
    {a : α} :
    Clean (expect kind >>= f) w a w' ↔ w.next.kind = kind ∧ Clean (f true) w.advance a w' := by
  unfold Clean
  rw [bind_apply, expect_apply, Window.advance_problems]
  by_cases h : w.next.kind = kind
  · simp [h]
  · simp only [h, if_false, false_and, iff_false, not_and]
    intro he hp
    have hl := (leads_of_ok he).problems.length_le
    rw [hp] at hl
    simp only [Window.note, Array.toList_push, List.length_append, List.length_singleton] at hl
    omega

end Parser

end Ember

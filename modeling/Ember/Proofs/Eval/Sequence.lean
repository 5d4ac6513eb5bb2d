import Ember.Proofs.Eval.Path

/-!
# Programs one behind the other

Statements are evaluated in order and share nothing but the heap. So a program that consists
of two is evaluated like the one and then, if that came to its end, like the other
(`Heap.run_append`); and one that fails has evaluated what stands in front of a statement,
and that statement, and nothing else (`Heap.run_failed`).
-/

namespace Ember

namespace Run

variable (self : Task → FrameId → Run (Option Value)) (f : FrameId)

theorem statements_append (v : Option Value) (ns ms : List Node) :
    statements self f v (ns ++ ms) =
      statements self f v ns >>= fun w => statements self f w ms := by
  induction ns generalizing v with
  | nil => rw [List.nil_append, statements, pure_bind]
  | cons n ns ih => simp only [List.cons_append, statements, ih, bind_assoc]

/-- What came before does not show in the value of statements, if there are any. -/
theorem statements_of_ne_nil {ms : List Node} (hms : ms ≠ []) (v w : Option Value) :
    statements self f v ms = statements self f w ms := by
  cases ms with
  | nil => exact absurd rfl hms
  | cons n ms => rfl

/-- Statements that end early do so at one of them; those in front of it came to an end, and
those behind it are not evaluated. -/
theorem statements_error {v : Option Value} {ns : List Node} {h h' : Heap} {stop : EvalStop}
    (hrun : statements self f v ns h = .error stop h') :
    ∃ before n after w h₁, ns = before ++ n :: after ∧ statements self f v before h = .ok w h₁ ∧
      self (.statement n) f h₁ = .error stop h' := by
  induction ns generalizing v h with
  | nil => cases hrun
  | cons n ns ih =>
    rw [statements, bind_apply] at hrun
    cases hn : self (.statement n) f h with
    | error stop' h₁ =>
      rw [hn] at hrun
      cases hrun
      exact ⟨[], n, ns, v, h, rfl, rfl, hn⟩
    | ok w h₁ =>
      rw [hn] at hrun
      obtain ⟨before, n', after, w', h₂, rfl, hbefore, hn'⟩ := ih hrun
      refine ⟨n :: before, n', after, w', h₂, rfl, ?_, hn'⟩
      rw [statements, bind_apply, hn]
      exact hbefore

end Run

namespace Heap

variable {f : FrameId} {s : Option Span} {limit : Int} {rounds : Nat}

/-- **Statements behind others are evaluated in the heap that those leave behind**, and only
if those came to their end. -/
theorem run_append (h : Heap) (f : FrameId) (s : Option Span) (ns : List Node) {ms : List Node}
    (hms : ms ≠ []) (limit : Int) (rounds : Nat) :
    h.run f ⟨s, ns ++ ms⟩ limit rounds =
      match h.run f ⟨s, ns⟩ limit rounds with
      | (.ok (.finished _), h₁) => h₁.run f ⟨s, ms⟩ limit rounds
      | r => r := by
  unfold run
  cases depthBudget limit with
  | error fault => rfl
  | ok depth =>
    simp only [Program.toNode, evalNode, Run.statements_append, Run.bind_apply]
    cases Run.statements (evalTask rounds depth) f none ns h with
    | ok v h₁ =>
      dsimp only
      rw [Run.statements_of_ne_nil _ f hms v none]
    | error stop h₁ => cases stop <;> rfl

/-- **Nothing behind a failing statement is evaluated.** A program that fails consists of
statements that come to their end, one that then fails in the same way and leaves the same
heap behind, and others. -/
theorem run_failed {h : Heap} {p : Program} {cause : RuntimeCause} {d : Diagnostic}
    (hrun : (h.run f p limit rounds).1 = .ok (.failed cause d)) :
    ∃ before n after v h₁, p.statements = before ++ n :: after ∧
      h.run f ⟨p.span, before⟩ limit rounds = (.ok (.finished v), h₁) ∧
      h₁.run f ⟨p.span, [n]⟩ limit rounds = h.run f p limit rounds := by
  unfold run at hrun ⊢
  cases hd : depthBudget limit with
  | error fault =>
    rw [hd] at hrun
    cases hrun
  | ok depth =>
    simp only [hd, Program.toNode, evalNode] at hrun ⊢
    cases hstatements : Run.statements (evalTask rounds depth) f none p.statements h with
    | ok v h₁ =>
      rw [hstatements] at hrun
      cases hrun
    | error stop h' =>
      obtain ⟨before, n, after, w, h₁, hsplit, hbefore, hn⟩ :=
        Run.statements_error _ f hstatements
      refine ⟨before, n, after, w, h₁, hsplit, by rw [hbefore], ?_⟩
      rw [Run.statements, Run.bind_apply, hn]

end Heap

end Ember

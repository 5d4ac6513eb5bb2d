import Ember.Proofs.Eval.Twins

/-!
# Programs that run side by side

What two runs of alike programs come to when a matching joins their heaps: the same fault,
failures for the same cause, or values that are the same up to the matching.
-/

namespace Ember

variable {k : Option Span → Option Span} {m : Matching} {h h' : Heap} {f f' : FrameId}

/-- The two runs have come to the same, up to spans and to what is paired. -/
inductive Ran (k : Option Span → Option Span) (m : Matching) :
    Except Fault Outcome → Except Fault Outcome → Prop
  | fault (reason : Fault) : Ran k m (.error reason) (.error reason)
  | failed (cause : RuntimeCause) {s s' : Option Span} : k s = k s' →
      Ran k m (.ok (.failed cause (cause.diagnostic s))) (.ok (.failed cause (cause.diagnostic s')))
  | finished {v v' : Option Value} : m.Results (Node.Alike k) v v' →
      Ran k m (.ok (.finished v)) (.ok (.finished v'))

/-- Values that are the same up to a matching are shown alike. -/
theorem Matching.Results.displayOf {v v' : Option Value} (hv : m.Results (Node.Alike k) v v') :
    displayOf v = displayOf v' := by
  cases hv with
  | none => rfl
  | some hv =>
    cases hv with
    | integer n => rfl
    | boolean b => rfl
    | function ps hb _ => simp only [Ember.displayOf, Value.display, Closure.print, hb.printOr]

/-- **Alike programs run alike in frames that are paired.** -/
theorem Heap.run_twins {p p' : Program} (hm : m.Joins (Node.Alike k) h h') (hx : m.Fits h h')
    (hf : m.frames f f') (hs : k p.span = k p'.span)
    (hns : List.Forall₂ (Node.Alike k) p.statements p'.statements) (limit : Int) (rounds : Nat) :
    ∃ m', m.Grows (Node.Alike k) h h' m' (h.run f p limit rounds).2 (h'.run f' p' limit rounds).2 ∧
      Ran k m' (h.run f p limit rounds).1 (h'.run f' p' limit rounds).1 := by
  unfold run
  cases depthBudget limit with
  | error reason => exact ⟨m, .refl hm hx, .fault reason⟩
  | ok depth =>
    have htwins := program_twins rounds depth hf p.span p'.span hns h h' hm hx
    simp only [Program.toNode]
    generalize evalNode rounds depth (.program p.span p.statements) f h = r at htwins ⊢
    generalize evalNode rounds depth (.program p'.span p'.statements) f' h' = r' at htwins ⊢
    cases htwins with
    | ok hgrows hv => exact ⟨_, hgrows, .finished hv⟩
    | @error m' stop stop' g g' hgrows hstop =>
      cases stop with
      | failed cause s =>
        cases stop' with
        | failed cause' s' =>
          rw [EvalStop.mapSpan, EvalStop.mapSpan, EvalStop.failed.injEq] at hstop
          obtain ⟨rfl, hs⟩ := hstop
          exact ⟨m', hgrows, .failed cause hs⟩
        | _ => cases hstop
      | tooDeep =>
        cases stop' with
        | tooDeep => exact ⟨m', hgrows, .failed .tooDeep hs⟩
        | _ => cases hstop
      | fault reason =>
        cases stop' with
        | fault reason' =>
          cases hstop
          exact ⟨m', hgrows, .fault reason⟩
        | _ => cases hstop

end Ember

import Ember.Proofs.Parse.Clean

/-!
# The first problem of a step

A step notes a problem at a window when it is not given up and that problem is the first
of those that it adds. In a sequence it is noted by a step that only clean ones precede
(`notes_bind`). So where a rule notes its first problem can be read off the rule.
-/

namespace Ember

namespace Parser

variable {α β : Type} {w : Window} {p : Problem}

/-- The first problem that the step adds to those of `w`. -/
def Notes (x : Parser α) (w : Window) (p : Problem) : Prop :=
  ∃ a w' rest, x w = .ok a w' ∧ w'.problems.toList = w.problems.toList ++ p :: rest

/-- A step that ends is clean, or it notes the first problem of a longer run. -/
theorem clean_or_notes {x : Parser α} [Along Window.Leads x] {a : α} {w' : Window}
    {rest : List Problem} (hx : x w = .ok a w')
    (hrun : w'.problems.toList <+: w.problems.toList ++ p :: rest) :
    Clean x w a w' ∨ Notes x w p := by
  obtain ⟨more, hmore⟩ := (leads_of_ok hx).problems
  cases more with
  | nil =>
    rw [List.append_nil, Array.toList_inj] at hmore
    exact .inl ⟨hx, hmore.symm⟩
  | cons q more =>
    -- problems stay where they are, so the first one of the run is that of the step
    obtain ⟨tail, ht⟩ := hrun
    rw [← hmore, List.append_assoc, List.append_cancel_left_eq, List.cons_append] at ht
    obtain ⟨rfl, -⟩ := List.cons.inj ht
    exact .inr ⟨a, w', more, hx, hmore.symm⟩

/-- A step that leaves the problems as they are notes none. -/
theorem not_notes_of_eq {x : Parser α} {a : α} {w' : Window} (hx : x w = .ok a w')
    (hp : w'.problems = w.problems) : ¬ Notes x w p := by
  rintro ⟨b, w'', rest, h, he⟩
  rw [hx] at h
  injection h with _ hw
  rw [← hw, hp] at he
  simpa using congrArg List.length he

theorem not_notes_pure {a : α} : ¬ Notes (pure a) w p := not_notes_of_eq rfl rfl

/-- Giving the parse up notes no problem. -/
theorem not_notes_throw {stop : ParseStop} : ¬ Notes (throw stop : Parser α) w p := by
  rintro ⟨a, w', rest, h, -⟩
  cases h

/-- The first problem of a sequence is the first one of its first step, or that step is
clean. -/
theorem notes_bind {x : Parser α} {f : α → Parser β} [Along Window.Leads x]
    [∀ a, Along Window.Leads (f a)] (h : Notes (x >>= f) w p) :
    Notes x w p ∨ ∃ a w₁, Clean x w a w₁ ∧ Notes (f a) w₁ p := by
  obtain ⟨b, w', rest, h, he⟩ := h
  rw [bind_apply] at h
  cases hx : x w with
  | error stop w₁ =>
    rw [hx] at h
    cases h
  | ok a w₁ =>
    rw [hx] at h
    have hrun := (leads_of_ok (x := f a) h).problems
    rw [he] at hrun
    rcases clean_or_notes hx hrun with hc | hn
    · exact .inr ⟨a, w₁, hc, b, w', rest, h, by rw [he, hc.2]⟩
    · exact .inl hn

theorem notes_current_bind {f : Token → Parser α} :
    Notes (current >>= f) w p ↔ Notes (f w.current) w p := Iff.rfl

theorem notes_next_bind {f : Token → Parser α} :
    Notes (next >>= f) w p ↔ Notes (f w.next) w p := Iff.rfl

theorem notes_nextIs_bind {kind : Kind} {f : Bool → Parser α} :
    Notes (nextIs kind >>= f) w p ↔ Notes (f (decide (w.next.kind = kind))) w p := Iff.rfl

theorem notes_remaining_bind {f : Nat → Parser α} :
    Notes (remaining >>= f) w p ↔ Notes (f w.ahead.length) w p := Iff.rfl

/-- A move notes no problem, so the first one is noted behind it. -/
theorem notes_advance_bind {f : Unit → Parser α} :
    Notes (advance >>= f) w p ↔ Notes (f ()) w.advance p := by
  unfold Notes
  rw [Window.advance_problems]
  exact Iff.rfl

/-- Where a rule only makes its tree, nothing is noted. -/
theorem not_notes_spanFrom_bind {first : Token} {f : Span → α} :
    ¬ Notes (spanFrom first >>= fun span => pure (f span)) w p :=
  not_notes_of_eq rfl rfl

theorem not_notes_spanOver_bind {n : Node} {f : Span → α} :
    ¬ Notes (spanOver n >>= fun span => pure (f span)) w p :=
  not_notes_of_eq rfl rfl

/-- The first problem of a step that starts with one. -/
theorem notes_note_bind {cause : SyntaxCause} {token quoted : Token} {f : Unit → Parser α}
    [∀ u, Along Window.Leads (f u)] (h : Notes (modify (·.note cause token quoted) >>= f) w p) :
    p = ⟨cause, token.span, quoted.span.start.line⟩ := by
  obtain ⟨a, w', rest, h, he⟩ := h
  rw [bind_apply, modify_apply] at h
  obtain ⟨tail, ht⟩ := (leads_of_ok (x := f ()) h).problems
  rw [he, Window.note, Array.toList_push, List.append_assoc, List.append_cancel_left_eq,
    List.singleton_append] at ht
  exact (List.cons.inj ht).1.symm

/-- The problem that a missing token leaves behind. -/
theorem notes_expect_bind {kind : Kind} {f : Bool → Parser α} [∀ b, Along Window.Leads (f b)]
    (h : Notes (expect kind >>= f) w p) :
    w.next.kind ≠ kind ∧ p.cause = unexpected kind w.next ∧ p.span = w.next.span ∨
      w.next.kind = kind ∧ Notes (f true) w.advance p := by
  obtain ⟨a, w', rest, h, he⟩ := h
  rw [bind_apply, expect_apply] at h
  by_cases hk : w.next.kind = kind
  · rw [if_pos hk] at h
    exact .inr ⟨hk, a, w', rest, h, by rw [he, Window.advance_problems]⟩
  · rw [if_neg hk] at h
    obtain ⟨tail, ht⟩ := (leads_of_ok (x := f false) h).problems
    rw [he, Window.note, Array.toList_push, List.append_assoc, List.append_cancel_left_eq,
      List.singleton_append] at ht
    have hp : _ = p := (List.cons.inj ht).1
    exact .inl ⟨hk, by rw [← hp], by rw [← hp]⟩

/-- The first problem is that a token is missing, or it is noted behind that token. -/
theorem notes_past {kind : Kind} {more : Parser Node} [Along Window.Leads more]
    (h : Notes (past kind more) w p) :
    w.next.kind ≠ kind ∧ p.cause = unexpected kind w.next ∧ p.span = w.next.span ∨
      w.next.kind = kind ∧ Notes more w.advance p :=
  notes_expect_bind h

end Parser

end Ember

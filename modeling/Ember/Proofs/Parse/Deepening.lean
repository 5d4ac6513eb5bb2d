import Ember.Proofs.Parse.Path

/-!
# More levels of nesting

With more levels a parse does the same, unless it was given up for want of levels;
then it comes at least as far (`parsePhrase_deepens`). So the limit on the nesting
decides only how much of a text is parsed, not how.
-/

namespace Ember

namespace Parser

variable {α β : Type} {r r' : Run α} {w : Window}

/-- The second run is the first one, or it goes on where the first one ran out of levels. -/
def Run.Deepens (r r' : Run α) : Prop :=
  r' = r ∨ ∃ w₁, r = .error .tooDeep w₁ ∧ w₁.Leads r'.stop? r'.window

/-- At every window `y` does what `x` does, or goes on where `x` ran out of levels. -/
structure Deepens (x y : Parser α) : Prop where
  run (w : Window) : Run.Deepens (x w) (y w)

/-- Where the second run goes on, what stands behind it only leads further. -/
theorem Run.Deepens.andThen {f g : α → Parser β} (h : r.Deepens r')
    (hf : ∀ a w', Run.Deepens (f a w') (g a w'))
    (hg : ∀ a (w' : Window), w'.Leads (Run.stop? (g a w')) (Run.window (g a w'))) :
    Run.Deepens (r.andThen f) (r'.andThen g) := by
  rcases h with rfl | ⟨w₁, rfl, hleads⟩
  · cases r' with
    | ok a w' => exact hf a w'
    | error stop w' => exact .inl rfl
  · refine .inr ⟨w₁, rfl, ?_⟩
    cases r' with
    | ok a w' => exact hleads.trans (hg a w')
    | error stop w' => exact hleads

/-- The judgement that the second of two runs deepens the first one, and leads on from where both of
them began. -/
def Walk.deepens : Walk where
  Holds _ w _ r r' := r.Deepens r' ∧ w.Leads r'.stop? r'.window
  Stands _ := True
  stands _ := trivial
  weaken _ h := h
  pure _ w _ _ := ⟨.inl rfl, .refl w⟩
  bind h hf :=
    ⟨h.1.andThen (fun a w' => (hf a w').1) fun a w' => (hf a w').2,
      path_andThen h.2 fun a w' => (hf a w').2⟩
  advance _ h := ⟨h.1, Window.Path.trans (Window.Path.advance _) h.2⟩
  note_current _ hcause h :=
    ⟨h.1, Window.Path.trans (Window.Path.note _ _ _ _ hcause (.inl rfl)) h.2⟩
  note_next hcause h := ⟨h.1, Window.Path.trans (Window.Path.note _ _ _ _ hcause (.inr rfl)) h.2⟩
  refuse hkind hlong := ⟨.inl rfl, Window.Path.refuse _ hkind hlong⟩

end Parser

open Ember.Parser

/-- **More levels change a parse only where it was given up for want of levels.** -/
theorem parsePhrase_deepens {depth depth' : Nat} (h : depth ≤ depth') (phrase : Phrase) :
    Deepens (parsePhrase depth phrase) (parsePhrase depth' phrase) := by
  obtain ⟨more, rfl⟩ := Nat.exists_eq_add_of_le h
  have hshort : ∀ depth phrase w, parsePhrase depth phrase w = .error .tooDeep w →
      Walk.deepens.At .opening w (parsePhrase depth phrase)
        (parsePhrase (depth + more) phrase) := by
    intro depth phrase w hdeep
    have hleads := (parsePhrase_along (R := Window.Leads) (depth + more) phrase).run w
    exact ⟨.inr ⟨w, hdeep, hleads⟩, hleads⟩
  exact ⟨fun w => (Walk.phrase more (fun _ => trivial) hshort depth phrase w).1⟩

end Ember

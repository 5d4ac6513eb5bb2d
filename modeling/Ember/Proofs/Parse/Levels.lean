import Ember.Proofs.Parse.Path

/-!
# Levels enough

A rule that starts at a window hands the phrases inside to others only after it has moved on by a
token, apart from a statement that is an expression. So four levels for each token are enough, and
two more for a statement (`parsePhrase_enough`): the nesting of a parse is bounded by the number of
tokens, whatever the text is.
-/

namespace Ember

/-- The levels that a phrase is given for so many tokens. -/
def Phrase.levels (tokens : Nat) : Phrase → Nat
  | .statement => 4 * tokens + 2
  | .expression _ => 4 * tokens
  | _ => 4 * tokens + 1

theorem Phrase.levels_le (phrase : Phrase) (tokens : Nat) :
    phrase.levels tokens ≤ 4 * tokens + 2 := by
  cases phrase <;> simp only [levels] <;> omega

/-- There is at least one token at a window, so no phrase is given less than four levels. -/
theorem Phrase.four_le_levels (phrase : Phrase) (w : Window) :
    4 ≤ phrase.levels w.tokens.length := by
  have hone : 1 ≤ w.tokens.length := Nat.le_add_left 1 _
  cases phrase <;> simp only [levels] <;> omega

namespace Parser

variable {depth : Nat} {w w' : Window} {point point' : Point}

/-- The levels are enough for the phrases that a rule may hand to others once it has come so far.
At the end of the text these are expressions only. -/
def Point.Room (depth : Nat) (w : Window) : Point → Prop
  | opening => 4 * w.tokens.length ≤ depth
  | start | begun => 4 * w.tokens.length ≤ depth + 2
  | moved | behind =>
    4 * w.tokens.length ≤ depth ∧ (w.tokens.length ≠ 1 → 4 * w.tokens.length + 2 ≤ depth)

theorem Point.Below.room (hbelow : point.Below point') (h : point'.Room depth w) :
    point.Room depth w := by
  cases hbelow with
  | begun | behind => exact h
  | start => exact Nat.le_add_right_of_le h
  | opening => exact h.1

/-- With fewer tokens there is as much room. -/
theorem Point.Room.later (h : point.Room depth w)
    (hlength : w'.tokens.length ≤ w.tokens.length) : point.after.Room depth w' := by
  cases point <;> simp only [Room, after] at h ⊢ <;> omega

/-- A move over a token makes room for any phrase. -/
theorem Point.Room.advance (h : point.Room depth w) (hmove : point.Free ∨ w.ahead ≠ []) :
    Point.moved.Room depth w.advance := by
  have hlength : w.advance.tokens.length = w.ahead.length - 1 + 1 :=
    congrArg (· + 1) w.advance_ahead_length
  have htokens : w.tokens.length = w.ahead.length + 1 := rfl
  have hahead : point.Free ∨ w.ahead.length ≠ 0 :=
    hmove.imp_right fun hne hzero => hne (List.length_eq_zero_iff.1 hzero)
  cases point <;> simp only [Room, Free, false_or] at h hahead ⊢ <;> omega

/-- The judgement that the levels are enough for a run, from a window with the end of the text. -/
def Walk.enough (depth : Nat) : Walk where
  Holds point w _ r _ := w.Ended → point.Room depth w →
    r.stop? ≠ some .tooDeep ∧ w.Leads r.stop? r.window
  Stands w := w.Ended → w.ahead ≠ []
  stands := id
  weaken hbelow h hw hroom := h hw (hbelow.room hroom)
  pure _ w _ _ _ _ := ⟨nofun, .refl w⟩
  bind {_ _ _ _ r _ _ _} h hf hw hroom := by
    obtain ⟨henough, hleads⟩ := h hw hroom
    cases r with
    | ok a w' =>
      have hroom' := hroom.later hleads.tokens.length_le
      obtain ⟨henough', hleads'⟩ := hf a w' (hw.of_suffix hleads.tokens) hroom'
      exact ⟨henough', hleads.trans hleads'⟩
    | error stop w' => exact ⟨henough, hleads⟩
  advance hmove h hw hroom := by
    obtain ⟨henough, hleads⟩ := h hw.advance (hroom.advance (hmove.imp_right (· hw)))
    exact ⟨henough, .trans (Window.Path.advance _) hleads⟩
  note_current _ hcause h hw hroom := by
    obtain ⟨henough, hleads⟩ := h hw (hroom.later (Nat.le_refl _))
    exact ⟨henough, .trans (Window.Path.note _ _ _ _ hcause (.inl rfl)) hleads⟩
  note_next hcause h hw hroom := by
    obtain ⟨henough, hleads⟩ := h hw (hroom.later (Nat.le_refl _))
    exact ⟨henough, .trans (Window.Path.note _ _ _ _ hcause (.inr rfl)) hleads⟩
  refuse hkind hlong _ _ := ⟨nofun, Window.Path.refuse _ hkind hlong⟩

/-- Rules that have levels enough serve inside others. -/
theorem Walk.enough_inside
    (h : ∀ (phrase : Phrase) (w : Window), w.Ended → phrase.levels w.tokens.length ≤ depth →
      (parsePhrase depth phrase).stop? w ≠ some .tooDeep) :
    (Walk.enough depth).Inside (parsePhrase depth) (parsePhrase depth) where
  expression above w hw hroom :=
    ⟨h (.expression above) w hw hroom, (parsePhrase_along depth _).run w⟩
  phrase phrase w hstands hw hroom := by
    have hmore : w.tokens.length ≠ 1 := fun hone =>
      hstands hw (List.length_eq_zero_iff.1 (Nat.succ.inj hone))
    refine ⟨h phrase w hw ?_, (parsePhrase_along depth phrase).run w⟩
    exact Nat.le_trans (phrase.levels_le _) (hroom.2 hmore)

/-- **A parse that is given four levels for each token is never short of them**, whatever the text
is. -/
theorem parsePhrase_enough : ∀ (depth : Nat) (phrase : Phrase) (w : Window), w.Ended →
    phrase.levels w.tokens.length ≤ depth → (parsePhrase depth phrase).stop? w ≠ some .tooDeep
  | depth + 1, .block, w, hw, h => by
    have hself := Walk.enough_inside (parsePhrase_enough depth)
    unfold parsePhrase
    exact (Walk.block hself hw (Nat.le_of_succ_le_succ h)).1
  | depth + 1, .conditional, w, hw, h => by
    have hself := Walk.enough_inside (parsePhrase_enough depth)
    unfold parsePhrase
    exact ((Walk.conditional hself).opening hw (Nat.le_of_succ_le_succ h)).1
  | depth + 1, .call callee, w, hw, h => by
    have hself := Walk.enough_inside (parsePhrase_enough depth)
    unfold parsePhrase
    exact (Walk.call hself callee hw (Nat.le_of_succ_le_succ h)).1
  | depth + 2, .statement, w, hw, h => by
    have hself := Walk.enough_inside (parsePhrase_enough depth)
    unfold parsePhrase
    exact (Walk.statement hself hw (Nat.le_of_add_le_add_right h)).1
  | depth + 2, .expression above, w, hw, h => by
    have hself := Walk.enough_inside (parsePhrase_enough depth)
    unfold parsePhrase
    exact (Walk.expression hself above hw h).1
  | 0, _, w, _, h | 1, .statement, w, _, h | 1, .expression _, w, _, h => by
    have hfour := Nat.le_trans (Phrase.four_le_levels _ w) h
    exact absurd hfour (by decide)

end Parser

end Ember

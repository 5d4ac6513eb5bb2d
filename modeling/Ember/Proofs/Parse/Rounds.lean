import Ember.Proofs.Parse.Clean
import Ember.Proofs.Grammar.Sound

/-!
# Loops over tokens

A loop of a rule is told how many rounds it may take. `Rounds` are those of a loop that may take any
number of them: it goes on until a round ends it, or gives the parse up. Every round that a loop of
a rule goes on from leaves tokens behind, so no loop takes more rounds than there are tokens, and
the number that it is told never ends it.
-/

namespace Ember

namespace Parser

variable {α β σ : Type}

/-- Rounds of a loop, as many as it takes. A round goes on with what it has found so far, or ends
the loop, or gives the parse up. -/
inductive Rounds (round : σ → Parser (σ ⊕ β)) :
    Nat → σ → Window → EStateM.Result ParseStop Window β → Prop
  | ends {a : σ} {b : β} {w w' : Window} : round a w = .ok (.inr b) w' →
      Rounds round 1 a w (.ok b w')
  | givenUp {a : σ} {stop : ParseStop} {w w' : Window} : round a w = .error stop w' →
      Rounds round 1 a w (.error stop w')
  | next {k : Nat} {a a' : σ} {w w' : Window} {r : EStateM.Result ParseStop Window β} :
      round a w = .ok (.inl a') w' → Rounds round k a' w' r → Rounds round (k + 1) a w r

/-- What follows a round. -/
def goOn (rest : σ → Parser β) : σ ⊕ β → Parser β
  | .inl a => rest a
  | .inr b => pure b

/-- A loop of such rounds. Where a round goes on, it has left a token behind, and the end of the
text is still ahead. -/
structure IsLoop (round : σ → Parser (σ ⊕ β)) (loop : Nat → σ → Parser β) : Prop where
  succ (n : Nat) (a : σ) : loop (n + 1) a = round a >>= goOn (loop n)
  goes {a a' : σ} {w w' : Window} : w.Ended → round a w = .ok (.inl a') w' → w'.tokens <:+ w.ahead

namespace IsLoop

variable {round : σ → Parser (σ ⊕ β)} {loop : Nat → σ → Parser β}
variable {n : Nat} {w w' : Window} {a a' : σ}

theorem shorter (h : IsLoop round loop) (hw : w.Ended) (hround : round a w = .ok (.inl a') w') :
    w'.Ended ∧ w'.ahead.length < w.ahead.length := by
  have hgoes := h.goes hw hround
  have hlength := hgoes.length_le
  rw [Window.tokens, List.length_cons] at hlength
  exact ⟨hw.of_suffix (hgoes.trans (List.suffix_cons _ _)), hlength⟩

/-- **With more rounds than there are tokens ahead, the loop ends by itself.** -/
theorem rounds (h : IsLoop round loop) (hw : w.Ended) (hn : w.ahead.length < n) (a : σ) :
    ∃ k ≤ w.tokens.length, Rounds round k a w (loop n a w) := by
  induction n generalizing a w with
  | zero => exact absurd hn (Nat.not_lt_zero _)
  | succ n ih =>
    have hone : 1 ≤ w.tokens.length := Nat.le_add_left 1 _
    rw [h.succ, bind_apply]
    cases hround : round a w with
    | error stop w' => exact ⟨1, hone, .givenUp hround⟩
    | ok r w' =>
      cases r with
      | inr b => exact ⟨1, hone, .ends hround⟩
      | inl a' =>
        obtain ⟨hw', hlt⟩ := h.shorter hw hround
        obtain ⟨k, hk, hrounds⟩ := ih hw' (by omega) a'
        have hle : w'.tokens.length ≤ w.ahead.length := (h.goes hw hround).length_le
        exact ⟨k + 1, Nat.succ_le_succ (Nat.le_trans hk hle), .next hround hrounds⟩

/-- A loop that has nothing to do without tokens ahead needs one round less. -/
theorem eq_succ (h : IsLoop round loop)
    (hlast : ∀ {a} {w : Window}, w.Ended → w.ahead = [] → loop 0 a w = loop 1 a w)
    (hw : w.Ended) (hn : w.ahead.length ≤ n) (a : σ) : loop n a w = loop (n + 1) a w := by
  induction n generalizing a w with
  | zero => exact hlast hw (List.length_eq_zero_iff.1 (Nat.le_zero.1 hn))
  | succ n ih =>
    rw [h.succ n, h.succ (n + 1), bind_apply, bind_apply]
    cases hround : round a w with
    | error stop w' => rfl
    | ok r w' =>
      cases r with
      | inr b => rfl
      | inl a' =>
        obtain ⟨hw', hlt⟩ := h.shorter hw hround
        exact ih hw' (by omega) a'

end IsLoop

/-! ## Rounds of the rules -/

variable {w w' w₁ : Window}

/-- From where a parse has come to, one token further on is behind the token that it started at. -/
theorem advance_suffix_ahead (h : w₁.tokens <:+ w.tokens) (hne : w.ahead ≠ []) :
    w₁.advance.tokens <:+ w.ahead := by
  rcases List.suffix_cons_iff.1 h with he | hlater
  · obtain ⟨-, he⟩ := List.cons.inj he
    have hnext := (Window.tokens_advance (he ▸ hne)).1
    exact he ▸ hnext ▸ List.suffix_refl _
  · exact w₁.advance_tokens_suffix.trans hlater

/-- A further parameter, behind a comma, or the end of the list. -/
def parameterRound (found : Array Name) : Parser (Array Name ⊕ Option (Array Name)) := do
  if ← nextIs .comma then
    advance
    if ← expect .identifier then return .inl (found.push (nameOf (← current)))
    else return .inr none
  else if ← expect .rightParen then return .inr (some found)
  else return .inr none

instance along_parameterRound (found : Array Name) : Along Window.Leads (parameterRound found) := by
  unfold parameterRound
  refine .of_walk fun w => (?_ : (Walk.along Window.Leads).At .moved w _ _)
  refine .nextIs (fun hcomma => .advance_next hcomma (by decide) ?_) ?_
  · exact .expect (by decide) (fun _ => .current (.pure _)) fun _ => .pure _
  · exact .expect (by decide) (fun _ => .pure _) fun _ => .pure _

theorem ite_bind_goOn {c : Prop} [Decidable c] {x y : Parser (σ ⊕ β)} {rest : σ → Parser β} :
    (if c then x else y) >>= goOn rest = if c then x >>= goOn rest else y >>= goOn rest := by
  split <;> rfl

/-- What a test of the next token leads to. -/
theorem nextIs_bind_apply {kind : Kind} {x y : Parser α} :
    (do if ← nextIs kind then x else y) w = if w.next.kind = kind then x w else y w := by
  change (if decide (w.next.kind = kind) then x else y) w = _
  by_cases h : w.next.kind = kind <;> simp [h]

theorem expect_bind_apply {kind : Kind} {x y : Parser α} :
    (do if ← expect kind then x else y) w = if w.next.kind = kind then x w.advance
      else y (w.note (unexpected kind w.next) w.next w.next) := by
  rw [bind_apply, expect_apply]
  by_cases h : w.next.kind = kind <;> simp [h]

theorem isLoop_moreParameters : IsLoop parameterRound (fun n found => moreParameters found n) where
  succ n found := by
    rw [moreParameters, parameterRound]
    simp only [bind_assoc, ite_bind_goOn]
    rfl
  goes {found found' w w'} hw h := by
    rw [parameterRound, nextIs_bind_apply] at h
    by_cases hc : w.next.kind = .comma
    · rw [if_pos hc, bind_apply, advance_apply] at h
      dsimp only at h
      rw [expect_bind_apply] at h
      obtain ⟨ha, -⟩ := hw.next_of hc Kind.noConfusion
      split at h
      · cases h
        rw [ha]
        exact w.advance.advance_tokens_suffix
      · cases h
    · rw [if_neg hc, expect_bind_apply] at h
      split at h <;> cases h

section

variable {self : Phrase → Parser Node}

/-- A further statement of a block, or its end. -/
def blockRound (self : Phrase → Parser Node) (opening : Token) (found : Array Node) :
    Parser (Array Node ⊕ Array Node) := do
  let token ← current
  if token.kind = .rightBrace then return .inr found
  else if token.kind = .endOfText then
    modify (·.note (.unexpectedEnd Kind.rightBrace.name) token opening)
    return .inr found
  else
    let statement ← self .statement
    advance
    return .inl (if statement.isMissing then found else found.push statement)

/-- A further argument, behind a comma, or the end of the list. -/
def argumentRound (self : Phrase → Parser Node) (found : Array Node) :
    Parser (Array Node ⊕ Array Node) := do
  if ← nextIs .comma then
    advance
    advance
    return .inl (found.push (← self (.expression lowest)))
  else return .inr found

/-- A further operator or call behind an operand, or the end of the expression. -/
def operatorRound (self : Phrase → Parser Node) (above : Nat) (left : Node) :
    Parser (Node ⊕ Node) := do
  let token ← next
  if left.isMissing ∨ token.kind.strength ≤ above then return .inr left
  else
    advance
    return .inl (← if token.kind = .leftParen then self (.call left) else infixed self left)

/-- Without tokens ahead there is no comma. -/
theorem moreArguments_last {found : Array Node} (hw : w.Ended) (hahead : w.ahead = []) :
    moreArguments self found 0 w = moreArguments self found 1 w := by
  have hcomma : w.next.kind ≠ .comma := by
    rw [hw.next_kind, hahead]
    exact Kind.noConfusion
  rw [moreArguments, moreArguments, nextIs_bind_apply, if_neg hcomma]

/-- Without tokens ahead there is no operator. -/
theorem operators_last {above : Nat} {left : Node} (habove : lowest ≤ above) (hw : w.Ended)
    (hahead : w.ahead = []) :
    operators self above left 0 w = operators self above left 1 w := by
  have hweak : w.next.kind.strength ≤ above := by
    rw [hw.next_kind, hahead]
    exact habove
  rw [operators, operators, bind_apply, next_apply]
  dsimp only
  rw [if_pos (.inr hweak)]

variable [hself : ∀ phrase, Along Window.Leads (self phrase)]

instance along_blockRound (opening : Token) (found : Array Node) :
    Along Window.Leads (blockRound self opening found) := by
  unfold blockRound
  refine .of_walk fun w => (?_ : (Walk.along Window.Leads).At .moved w _ _)
  refine .current (.ite (fun _ => .pure _) fun _ => .ite (fun _ => ?_) fun _ => ?_)
  · exact .note trivial (by simp) (.pure _)
  · exact .bind ((hself .statement).run w) fun statement w₁ => .advance (.inl trivial) (.pure _)

instance along_argumentRound (found : Array Node) :
    Along Window.Leads (argumentRound self found) := by
  unfold argumentRound
  infer_instance

instance along_operatorRound (above : Nat) (left : Node) :
    Along Window.Leads (operatorRound self above left) := by
  unfold operatorRound
  infer_instance

theorem isLoop_blockStatements (opening : Token) :
    IsLoop (blockRound self opening) (fun n found => blockStatements self opening found n) where
  succ n found := by
    rw [blockStatements, blockRound]
    simp only [bind_assoc, ite_bind_goOn]
    rfl
  goes {found found' w w'} hw h := by
    rw [blockRound, bind_apply, current_apply] at h
    dsimp only at h
    split at h
    · cases h
    split at h
    · cases h
    · next he =>
      rw [bind_apply] at h
      cases hs : self .statement w with
      | error stop w₁ =>
        rw [hs] at h
        cases h
      | ok statement w₁ =>
        rw [hs] at h
        cases h
        exact advance_suffix_ahead (leads_of_ok hs).tokens (hw.ahead_ne_nil he)

theorem isLoop_moreArguments :
    IsLoop (argumentRound self) (fun n found => moreArguments self found n) where
  succ n found := by
    rw [moreArguments, argumentRound]
    simp only [bind_assoc, ite_bind_goOn]
    rfl
  goes {found found' w w'} hw h := by
    rw [argumentRound, nextIs_bind_apply] at h
    split at h
    · next hc =>
      obtain ⟨ha, -⟩ := hw.next_of hc Kind.noConfusion
      rw [bind_apply, advance_apply] at h
      dsimp only at h
      rw [ha]
      exact (leads_of_ok h).tokens
    · cases h

theorem isLoop_operators {above : Nat} (habove : lowest ≤ above) :
    IsLoop (operatorRound self above) (fun n left => operators self above left n) where
  succ n found := by
    rw [operators, operatorRound]
    simp only [bind_assoc, ite_bind_goOn]
    rfl
  goes {left left' w w'} hw h := by
    rw [operatorRound, bind_apply, next_apply] at h
    dsimp only at h
    split at h
    · cases h
    · next hs =>
      have hk := Kind.ne_endOfText_of_lt (Nat.lt_of_not_le (not_or.1 hs).2) habove
      obtain ⟨ha, -⟩ := hw.next_of rfl hk
      rw [bind_apply, advance_apply] at h
      dsimp only at h
      rw [ha]
      exact (leads_of_ok h).tokens

/-- Every loop that a rule runs from the window ends by itself, in no more rounds than there are
tokens. The numbers of rounds are those that the rules allow, or more. -/
structure LoopsEnd (self : Phrase → Parser Node) (w : Window) : Prop where
  parameters (found : Array Name) (n : Nat) : w.ahead.length < n →
    ∃ k ≤ w.tokens.length, Rounds parameterRound k found w (moreParameters found n w)
  statements (opening : Token) (found : Array Node) (n : Nat) : w.ahead.length < n →
    ∃ k ≤ w.tokens.length,
      Rounds (blockRound self opening) k found w (blockStatements self opening found n w)
  arguments (found : Array Node) (n : Nat) : w.ahead.length ≤ n →
    ∃ k ≤ w.tokens.length, Rounds (argumentRound self) k found w (moreArguments self found n w)
  operators (above : Nat) (left : Node) (n : Nat) : lowest ≤ above → w.ahead.length ≤ n →
    ∃ k ≤ w.tokens.length,
      Rounds (operatorRound self above) k left w (operators self above left n w)

/-- **No loop of a rule is ended by the number of rounds that it is told.** -/
theorem loopsEnd (hw : w.Ended) : LoopsEnd self w where
  parameters found _ hn := isLoop_moreParameters.rounds hw hn found
  statements opening found _ hn := (isLoop_blockStatements opening).rounds hw hn found
  arguments found n hn := by
    have hmore : moreArguments self found n w = moreArguments self found (n + 1) w :=
      isLoop_moreArguments.eq_succ moreArguments_last hw hn found
    rw [hmore]
    exact isLoop_moreArguments.rounds hw (Nat.lt_succ_of_le hn) found
  operators above left n habove hn := by
    have hmore : operators self above left n w = operators self above left (n + 1) w :=
      (isLoop_operators habove).eq_succ (operators_last habove) hw hn left
    rw [hmore]
    exact (isLoop_operators habove).rounds hw (Nat.lt_succ_of_le hn) left

end

end Parser

end Ember

import Ember.Proofs.Grammar.Expected
import Ember.Proofs.Parse.Noted
import Ember.Proofs.Token.Stream

/-!
# The first problem is where the tokens stop being a program

What is expected of the tokens ahead is broken at a token when the tokens before it can go
on as expected and with it they cannot (`Broken`). The first problem that a rule notes is
at such a token (`parsePhrase_breaks`), whatever is expected behind the phrase, as long as
that may start with a token that goes on with nothing (`Closable`).

A problem behind a phrase that was read without one breaks the phrase and what is behind it
(`Broken.behind`): the phrase takes the same tokens whatever stands behind the token that is
found wrong, and the tokens before it can go on with what closes the phrase.
-/

namespace Ember

/-- The problem is found at the token `t`, behind the tokens `ps`. When a name starts a clause
that is no assignment, the problem is found at the name, and the token behind it is the
wrong one. -/
def Problem.Blames (p : Problem) (ps : List Token) (t : Token) : Prop :=
  p.span = t.span ∧ ¬ (p.cause.code = "E105" ∧ t.kind = .identifier) ∨
    p.cause.code = "E105" ∧ ∃ qs u, ps = qs ++ [u] ∧ u.kind = .identifier ∧ p.span = u.span

/-- The tokens are as expected up to the one that the problem is found at, and with it they
are not. -/
def Broken (K : Expected) (ts : List Token) (p : Problem) : Prop :=
  ∃ ps t rest us, ts = ps ++ t :: rest ∧ p.Blames ps t ∧ K (ps ++ us) ∧ ∀ vs, ¬ K (ps ++ t :: vs)

variable {K K' : Expected} {p : Problem} {t : Token} {ts us : List Token} {above : Nat}

/-- What a problem blames does not depend on the tokens further in front. -/
theorem Problem.Blames.append {ps : List Token} (h : p.Blames ps t) (qs : List Token) :
    p.Blames (qs ++ ps) t := by
  rcases h with h | ⟨hcode, xs, u, rfl, hu⟩
  · exact .inl h
  · exact .inr ⟨hcode, qs ++ xs, u, by rw [List.append_assoc], hu⟩

namespace Broken

/-- Tokens in front that are as expected. -/
theorem append (h : Broken K ts p) (pre : List Token) (hK : ∀ us, K' (pre ++ us) ↔ K us) :
    Broken K' (pre ++ ts) p := by
  obtain ⟨ps, t, rest, us, rfl, hb, hus, hdead⟩ := h
  refine ⟨pre ++ ps, t, rest, us, by simp, hb.append pre, ?_, fun vs hvs => hdead vs ?_⟩
  · rw [List.append_assoc]
    exact (hK _).2 hus
  · rw [List.append_assoc] at hvs
    exact (hK _).1 hvs

/-- Behind a token that is as expected the rest is what breaks. -/
theorem cons (h : Broken K ts p) (hK : ∀ us, K' (t :: us) ↔ K us) : Broken K' (t :: ts) p :=
  h.append [t] hK

/-- Two expectations that agree on tokens with such a first one, as those ahead have and those
that are expected. -/
theorem congr_first {q : Kind → Prop} (h : Broken K ts p)
    (hK : ∀ us, q (firstKind us .endOfText) → (K us ↔ K' us)) (hts : q (firstKind ts .endOfText))
    (hq : ∀ us, K us → q (firstKind us .endOfText)) : Broken K' ts p := by
  obtain ⟨ps, t, rest, us, rfl, hb, hus, hdead⟩ := h
  refine ⟨ps, t, rest, us, rfl, hb, (hK _ (hq _ hus)).1 hus, fun vs hvs => hdead vs ?_⟩
  refine (hK _ ?_).2 hvs
  -- the wrong token is the first one, or the first one is unchanged
  cases ps with
  | nil => exact hts
  | cons u ps => exact hts

/-- What breaks is the same for what is expected of the same tokens. -/
theorem congr (h : Broken K ts p) (hK : ∀ us, K us ↔ K' us) : Broken K' ts p :=
  h.congr_first (q := fun _ => True) (fun us _ => hK us) trivial fun _ _ => trivial

/-- A token that nothing of what is expected starts with. -/
theorem rejected (hspan : p.span = t.span)
    (hcode : ¬ (p.cause.code = "E105" ∧ t.kind = .identifier)) (hK : ∃ us, K us)
    (hdead : ∀ vs, ¬ K (t :: vs)) : Broken K (t :: ts) p := by
  obtain ⟨us, hus⟩ := hK
  exact ⟨[], t, ts, us, rfl, .inl ⟨hspan, hcode⟩, hus, hdead⟩

/-- Another token than the expected one stands in front. -/
theorem missing {kind : Kind} (ht : t.kind ≠ kind) (hspan : p.span = t.span)
    (hcode : p.cause.code ≠ "E105") (hK : ∃ us, K us) : Broken (Takes kind K) (t :: ts) p := by
  obtain ⟨us, hus⟩ := hK
  exact rejected hspan (fun h => hcode h.1) ⟨⟨kind, "", t.span⟩ :: us, takes_cons.2 ⟨rfl, hus⟩⟩
    fun vs hvs => ht (takes_cons.1 hvs).1

/-- Behind something that is read so. -/
theorem behind {α : Type} {read : α → Reading} {a : α} (h : Broken K us p)
    (hl : Leaves .endOfText (read a) ts us) (hp : (read a).Proper)
    (hu : ∀ {a' ts us us'}, Leaves .endOfText (read a) ts us →
      Leaves .endOfText (read a') ts us' → us = us')
    (hK : ∃ xs, K xs ∧ (read a).Closes (firstKind xs .endOfText)) : Broken (Has read K) ts p := by
  obtain ⟨cs, rfl, hr⟩ := hl
  obtain ⟨ps, t, rest, xs, rfl, hb, hx, hdead⟩ := h
  have hfirst : ∀ vs, firstKind (ps ++ t :: vs) .endOfText =
      firstKind (ps ++ t :: rest) .endOfText := by
    intro vs
    cases ps <;> rfl
  -- right behind the stretch another token may stand than the wrong one
  have hall : ∃ ys, K (ps ++ ys) ∧ Reads (read a) cs (firstKind (ps ++ ys) .endOfText) := by
    cases ps with
    | nil =>
      obtain ⟨ys, hys, hc⟩ := hK
      exact ⟨ys, hys, hr.refollow hp hc⟩
    | cons => exact ⟨xs, hx, hr⟩
  obtain ⟨ys, hys, hreads⟩ := hall
  refine ⟨cs ++ ps, t, rest, ys, by simp, hb.append cs, ?_, ?_⟩
  · exact ⟨a, ps ++ ys, ⟨cs, List.append_assoc .., hreads⟩, hys⟩
  · rintro vs ⟨a', us', hl', hK'⟩
    have hl : Leaves .endOfText (read a) (cs ++ ps ++ t :: vs) (ps ++ t :: vs) :=
      ⟨cs, List.append_assoc .., by rwa [hfirst]⟩
    exact hdead vs (hu hl hl' ▸ hK')

/-- Behind parameters. -/
theorem parameters {names : List Name} {ps : List Token} (h : Broken K us p)
    (hps : Parameters ps names) : Broken (HasParameters K) (ps ++ us) p := by
  obtain ⟨qs, t, rest, xs, rfl, hb, hx, hdead⟩ := h
  refine ⟨ps ++ qs, t, rest, xs, by simp, hb.append ps, ?_, ?_⟩
  · exact ⟨ps, names, qs ++ xs, List.append_assoc .., hps, hx⟩
  · rintro vs ⟨ps', names', us', he, hps', hK'⟩
    have hrest : us' = qs ++ t :: vs := by
      refine hps'.rest_unique hps ?_
      rw [← he, List.append_assoc]
    exact hdead vs (hrest ▸ hK')

end Broken

/-! ## What may close a phrase -/

/-- What is expected may start with a token that goes on with nothing. -/
def Closable (K : Expected) : Prop :=
  ∃ us, K us ∧ (firstKind us .endOfText).Closes

/-- It may start with one that does not end a statement either. -/
def Endable (K : Expected) : Prop :=
  ∃ us, K us ∧ (firstKind us .endOfText).Closes ∧ firstKind us .endOfText ≠ .semicolon

theorem Endable.closable (h : Endable K) : Closable K := by
  obtain ⟨us, hus, hc, -⟩ := h
  exact ⟨us, hus, hc⟩

theorem Closable.possible (h : Closable K) : ∃ us, K us := by
  obtain ⟨us, hus, -⟩ := h
  exact ⟨us, hus⟩

/-- Some token of the kind. -/
def Kind.token (k : Kind) : Token :=
  { kind := k, text := k.spelling?.getD "x", span := default }

theorem possible_takes (kind : Kind) (h : ∃ us, K us) : ∃ us, Takes kind K us := by
  obtain ⟨us, hus⟩ := h
  exact ⟨kind.token :: us, takes_cons.2 ⟨rfl, hus⟩⟩

/-- Where a token is expected that closes phrases, they may be closed. -/
theorem closable_takes (kind : Kind) (hk : kind.Closes) (h : ∃ us, K us) :
    Closable (Takes kind K) := by
  obtain ⟨us, hus⟩ := possible_takes kind h
  exact ⟨us, hus, by rwa [hus.firstKind]⟩

/-- Where a phrase may be closed there may be no operator at all. -/
theorem Closable.operators (h : Closable K) (ha : lowest ≤ above) :
    Closable (HasOperators above K) := by
  obtain ⟨us, hus, hc⟩ := h
  exact ⟨us, (hasOperators_stop (Nat.le_trans hc.1 ha)).2 hus, hc⟩

/-- An expression is possible in front of what may close it. -/
theorem Closable.expression (h : Closable K) (ha : lowest ≤ above) :
    ∃ us, Has (.expression above) K us := by
  obtain ⟨us, hus, -⟩ := h.operators ha
  exact ⟨Kind.identifier.token :: us, has_expression.2 ((has_operand_name rfl).2 hus)⟩

/-- A declaration is possible in front of what may close it. -/
theorem Closable.binding (h : Closable K) : ∃ us, Has .binding K us := by
  obtain ⟨us, hus⟩ := possible_takes .assign (h.expression (Nat.le_refl lowest))
  exact ⟨Kind.identifier.token :: us, (has_binding_name rfl).2 hus⟩

/-- A block is possible anywhere, since it starts with its brace. -/
theorem closable_block (h : ∃ us, K us) : Closable (Has .block K) := by
  obtain ⟨us, hus⟩ := possible_takes .rightBrace h
  refine ⟨Kind.leftBrace.token :: us, (has_block rfl).2 (has_statements.2 (.inl hus)), ?_⟩
  exact (by decide : Kind.leftBrace.Closes)

/-- An alternative may be left out where the conditional may be closed. -/
theorem Closable.alternative (h : Closable K) : Closable (HasAlternative K) := by
  obtain ⟨us, hus, hc⟩ := h
  exact ⟨us, (hasAlternative_none hc.2.1).2 hus, hc⟩

/-- Parameters may be closed at once. -/
theorem possible_parameters (h : ∃ us, K us) : ∃ us, HasParameters K us := by
  obtain ⟨us, hus⟩ := h
  exact ⟨Kind.rightParen.token :: us, (hasParameters_close rfl).2 hus⟩

theorem possible_moreParameters (h : ∃ us, K us) : ∃ us, HasMoreParameters K us := by
  obtain ⟨us, hus⟩ := possible_takes .rightParen h
  refine ⟨us, (hasMoreParameters ?_).2 hus⟩
  rw [hus.firstKind]
  decide

theorem closable_moreArguments (h : ∃ us, K us) : Closable (Has .moreArguments K) := by
  obtain ⟨us, hus⟩ := possible_takes .rightParen h
  have hfirst := hus.firstKind .endOfText
  refine ⟨us, (has_moreArguments ?_).2 hus, ?_⟩ <;> rw [hfirst]
  · decide
  · decide

/-- Behind a statement a semicolon may be left out. -/
theorem Endable.semicolon (h : Endable K) : Closable (PastSemicolon K) := by
  obtain ⟨us, hus, hc, hne⟩ := h
  exact ⟨us, ⟨us, .inr ⟨rfl, hne⟩, hus⟩, hc⟩

/-- Statements may end where one of them may. -/
theorem Endable.statements (h : Endable K) : Endable (Has .statements K) := by
  obtain ⟨us, hus, hc⟩ := h
  exact ⟨us, has_statements.2 (.inl hus), hc⟩

end Ember

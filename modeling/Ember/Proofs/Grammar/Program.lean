import Ember.Proofs.Grammar.Complete
import Ember.Proofs.Parse.Deepening
import Ember.Proofs.Token.Stream

/-!
# What programs are read as

A parse that reports no problem has read all tokens of its source as the statements
it gives (`Source.parse_reads`), and tokens that are read as statements are parsed
without a problem by any parse that is not short of levels (`Source.parse_of_reads`).
-/

namespace Ember

open Ember.Parser

variable {limit : Int} {depth depth' m : Nat} {found all : Array Node} {w w' : Window}
  {ending : ParseEnd}

/-! ## Rounds of the loop over statements -/

/-- A statement joins those found unless it is missing. -/
def keep (found : Array Node) (statement : Node) : Array Node :=
  if statement.isMissing then found else found.push statement

/-- What a round of the loop over statements may come to. -/
inductive StatementRound (limit : Int) (depth : Nat) (found : Array Node) (m : Nat) (w : Window)
    (r : Except Fault (Array Node × ParseEnd × Window)) : Prop
  | complete : w.current.kind = .endOfText → r = .ok (found, .complete, w) →
      StatementRound limit depth found m w r
  | refused {digits : Nat} {w₁ : Window} : w.current.kind ≠ .endOfText →
      parsePhrase depth .statement w = .error (.literalTooLong digits) w₁ →
      r = .error (.literalTooLong digits) → StatementRound limit depth found m w r
  | tooDeep {w₁ : Window} : w.current.kind ≠ .endOfText →
      parsePhrase depth .statement w = .error .tooDeep w₁ →
      r = .ok (found, .tooDeep w₁.current.span.start, w₁.note .tooDeep w₁.current w₁.current) →
      StatementRound limit depth found m w r
  | problemLimit {statement : Node} {w₁ : Window} : w.current.kind ≠ .endOfText →
      parsePhrase depth .statement w = .ok statement w₁ → limit ≤ w₁.problems.size →
      r = .ok (keep found statement, .problemLimit, w₁) → StatementRound limit depth found m w r
  | next {statement : Node} {w₁ : Window} : w.current.kind ≠ .endOfText →
      parsePhrase depth .statement w = .ok statement w₁ → ¬ limit ≤ w₁.problems.size →
      parseStatements limit depth (keep found statement) m w₁.advance = r →
      StatementRound limit depth found m w r

theorem parseStatements_round (limit : Int) (depth : Nat) (found : Array Node) (m : Nat)
    (w : Window) :
    StatementRound limit depth found m w (parseStatements limit depth found (m + 1) w) := by
  rw [parseStatements]
  by_cases he : w.current.kind = .endOfText
  · exact .complete he (if_pos he)
  rw [if_neg he]
  cases hw : parsePhrase depth .statement w with
  | error stop w₁ =>
    cases stop with
    | tooDeep => exact .tooDeep he hw rfl
    | literalTooLong digits => exact .refused he hw rfl
  | ok statement w₁ =>
    dsimp only
    by_cases hl : limit ≤ w₁.problems.size
    · exact .problemLimit he hw hl (if_pos hl)
    · exact .next he hw hl (if_neg hl).symm

/-- Problems are only added. -/
theorem parseStatements_problems
    (h : parseStatements limit depth found m w = .ok (all, ending, w')) :
    w.problems.toList <+: w'.problems.toList := by
  induction m generalizing found w with
  | zero =>
    cases h
    exact List.prefix_refl _
  | succ m ih =>
    have hround := parseStatements_round limit depth found m w
    rw [h] at hround
    cases hround with
    | complete _ hr =>
      cases hr
      exact List.prefix_refl _
    | refused _ _ hr => cases hr
    | tooDeep _ hs hr =>
      cases hr
      refine (leads_of_error hs).problems.trans ?_
      rw [Window.note, Array.toList_push]
      exact List.prefix_append _ _
    | problemLimit _ hs _ hr =>
      cases hr
      exact (leads_of_ok hs).problems
    | next _ hs _ hr =>
      have hrest := ih hr
      rw [Window.advance_problems] at hrest
      exact (leads_of_ok hs).problems.trans hrest

/-- A parse is refused only for an integer literal that is too long. -/
theorem parseStatements_refused {fault : Fault}
    (h : parseStatements limit depth found m w = .error fault) :
    ∃ t ∈ w.tokens, t.kind = .integer ∧ maxDigits < t.text.length ∧
      fault = .literalTooLong t.text.length := by
  induction m generalizing found w with
  | zero => cases h
  | succ m ih =>
    have hround := parseStatements_round limit depth found m w
    rw [h] at hround
    cases hround with
    | complete _ hr => cases hr
    | @refused digits w₁ _ hs hr =>
      have hl := leads_of_error hs
      obtain ⟨hk, hlen, hmax⟩ := hl.refused digits rfl
      subst hlen
      exact ⟨w₁.current, hl.tokens.subset (List.mem_cons_self ..), hk, hmax, Except.error.inj hr⟩
    | tooDeep _ _ hr => cases hr
    | problemLimit _ _ _ hr => cases hr
    | @next statement w₁ _ hs _ hr =>
      obtain ⟨t, ht, hk⟩ := ih hr
      exact ⟨t, (leads_of_ok hs).tokens.subset (w₁.advance_tokens_suffix.subset ht), hk⟩

/-- More levels make no difference to a parse that was not short of them. -/
theorem parseStatements_deepens (hd : depth ≤ depth')
    (h : parseStatements limit depth found m w = .ok (all, ending, w'))
    (hend : ∀ place, ending ≠ .tooDeep place) :
    parseStatements limit depth' found m w = .ok (all, ending, w') := by
  induction m generalizing found w with
  | zero => exact h
  | succ m ih =>
    have hsame : ∀ {statement w₁}, parsePhrase depth .statement w = .ok statement w₁ →
        parsePhrase depth' .statement w = .ok statement w₁ := by
      intro statement w₁ hs
      rcases (parsePhrase_deepens hd .statement).run w with he | ⟨w₂, he, -⟩
      · rw [he, hs]
      · rw [hs] at he
        cases he
    have hround := parseStatements_round limit depth found m w
    rw [h] at hround
    rw [parseStatements]
    cases hround with
    | complete he hr => rw [if_pos he, hr]
    | refused _ _ hr => cases hr
    | tooDeep _ _ hr =>
      cases hr
      exact absurd rfl (hend _)
    | problemLimit he hs hl hr =>
      rw [if_neg he, hsame hs]
      exact (if_pos hl).trans hr.symm
    | next he hs hl hr =>
      rw [if_neg he, hsame hs]
      exact (if_neg hl).trans (ih hr)

/-! ## Programs without problems -/

/-- Without a problem all tokens are read, up to the end of the text. -/
theorem parseStatements_reads (hw : w.Ended) (hm : w.ahead.length < m)
    (hlimit : w.problems.size < limit)
    (h : parseStatements limit depth found m w = .ok (all, ending, w'))
    (hp : w'.problems = w.problems) :
    ending = .complete ∧ w'.current.kind = .endOfText ∧ ∃ ns ts, all.toList = found.toList ++ ns ∧
      w.tokens = ts ++ w'.tokens ∧ Reads (.statements ns) ts .endOfText := by
  induction m generalizing found w with
  | zero => exact absurd hm (Nat.not_lt_zero _)
  | succ m ih =>
    have hround := parseStatements_round limit depth found m w
    rw [h] at hround
    -- problems of a statement would still be there at the end
    have hsame : ∀ {w₁ : Window}, w.problems.toList <+: w₁.problems.toList →
        w₁.problems.toList <+: w'.problems.toList → w₁.problems = w.problems := by
      intro w₁ h₁ h₂
      rw [hp] at h₂
      exact Array.toList_inj.1 (h₂.eq_of_length_le h₁.length_le)
    cases hround with
    | complete he hr =>
      cases hr
      exact ⟨rfl, he, [], [], by simp, rfl, .noStatements⟩
    | refused _ _ hr => cases hr
    | tooDeep _ hs hr =>
      cases hr
      have hle := (leads_of_error hs).problems.length_le
      rw [← hp] at hle
      simp only [Window.note, Array.toList_push, List.length_append, List.length_singleton] at hle
      omega
    | problemLimit _ hs hl hr =>
      cases hr
      rw [hp] at hl
      omega
    | @next statement w₁ he hs hl hr =>
      have hrest := parseStatements_problems hr
      rw [Window.advance_problems] at hrest
      have hp₁ := hsame (leads_of_ok hs).problems hrest
      obtain ⟨ts, ht, hread⟩ := parsePhrase_sound depth .statement w _ _ hw trivial ⟨hs, hp₁⟩
      have hpresent : statement.isMissing = false :=
        Reads.present (r := .statement statement) hread
      have hpos := List.length_pos_iff.2 (Reads.ne_nil (r := .statement statement) hread trivial)
      have hlen := congrArg List.length ht
      rw [Window.tokens, List.length_cons, List.length_append] at hlen
      -- the last token of the statement is not the end of the text, so another one follows
      have hne := Reads.ahead_ne_nil (r := .statement statement) hread trivial hw ht
      have e₁ := (Window.tokens_advance hne).1
      have hlen₁ := congrArg List.length e₁
      rw [Window.tokens, List.length_cons] at hlen₁
      obtain ⟨hend, hk, ns, us, hall, hu, hreads⟩ :=
        ih (hw.of_suffix (leads_of_ok hs).tokens).advance (by omega)
          (by rw [Window.advance_problems, hp₁]; exact hlimit) hr
          (by rw [Window.advance_problems, hp, hp₁])
      refine ⟨hend, hk, statement :: ns, ts ++ us, ?_, by rw [ht, e₁, hu, List.append_assoc],
        .statements ?_ hreads⟩
      · rw [hall, keep, hpresent, if_neg Bool.false_ne_true, Array.toList_push, List.append_assoc,
          List.singleton_append]
      · rw [Window.follow, e₁, hu, firstKind_append] at hread
        rwa [Window.tokens, firstKind_cons, hk] at hread

/-- Tokens that are read as statements are parsed to them if there are levels enough. -/
theorem parseStatements_of_reads {ns : List Node} {ts : List Token} {k : Kind} {last : Token}
    (h : Reads (.statements ns) ts k) (hk : k = .endOfText) (hd : 4 * ts.length + 2 ≤ depth)
    (hm : ts.length < m) (hlimit : w.problems.size < limit) (hlast : last.kind = k)
    (hw : w.tokens = ts ++ [last]) :
    ∃ all w', parseStatements limit depth found m w = .ok (all, .complete, w') ∧
      all.toList.map Node.erase = (found.toList ++ ns).map Node.erase ∧
      w'.tokens = [last] ∧ w'.problems = w.problems := by
  induction ns generalizing ts found m w with
  | nil =>
    cases h
    obtain ⟨m, rfl⟩ := Nat.exists_eq_add_of_le' (Nat.one_le_of_lt hm)
    have hc : w.current.kind = .endOfText := by rw [Window.current_eq hw, hlast, hk]
    refine ⟨found, w, ?_, by simp, hw, rfl⟩
    rw [parseStatements, if_pos hc]
  | cons n ns ih =>
    cases h with
    | @statements ts us _ _ _ h₁ h₂ =>
      have hpos := List.length_pos_iff.2 (h₁.ne_nil trivial)
      rw [List.length_append] at hd hm
      obtain ⟨m, rfl⟩ := Nat.exists_eq_add_of_le' (by omega : 1 ≤ m)
      rw [List.append_assoc] at hw
      have hstarts : Starts (us ++ [last]) (firstKind us k) := (starts_cons hlast).append us
      obtain ⟨n', w₁, ⟨hrun, hp⟩, he, ha⟩ := h₁.runs depth w (us ++ [last]) (by omega) hw hstarts
      have hc : w.current.kind ≠ .endOfText := by
        obtain ⟨t, ts, rfl, -⟩ := h₁.first trivial
        rw [Window.current_eq hw]
        exact h₁.not_end trivial t (List.mem_cons_self ..)
      obtain ⟨all, w', hrest, hall, hw', hp'⟩ := @ih m (found.push n') w₁.advance us h₂
        (by omega) (by omega) (by rw [Window.advance_problems, hp]; exact hlimit)
        (Window.advance_tokens_eq ha hstarts.ne_nil)
      refine ⟨all, w', ?_, ?_, hw', by rw [hp', Window.advance_problems, hp]⟩
      · rw [parseStatements, if_neg hc, hrun]
        dsimp only
        rw [if_neg (by rw [hp]; omega), if_neg (Node.present_of_erase he h₁.present)]
        exact hrest
      · rw [hall, Array.toList_push]
        simp [he]

/-! ## Sources -/

theorem ofTokens_tokens_of_ne_nil {ts : List Token} (h : ts ≠ []) :
    (Window.ofTokens ts).tokens = ts := by
  obtain ⟨t, us, rfl⟩ := List.exists_cons_of_ne_nil h
  rfl

/-- A result that is known in part is one. -/
theorem ok_of_toOption {ε α β : Type} {x : Except ε α} {f : α → β} {b : β}
    (h : x.toOption.map f = some b) : ∃ a, x = .ok a ∧ f a = b := by
  cases x with
  | error e => cases h
  | ok a => exact ⟨a, rfl, Option.some.inj h⟩

/-- What a parse of tokens consists of. -/
theorem parseTokens_run {ts : List Token} {parsed : Parsed}
    (h : parseTokens limit depth ts = .ok parsed) :
    ∃ all w', parseStatements limit depth #[] (ts.length + 1) (Window.ofTokens ts) =
        .ok (all, parsed.ending, w') ∧
      parsed.problems = w'.problems ∧ parsed.program.statements = all.toList := by
  unfold parseTokens at h
  cases hrun : parseStatements limit depth #[] (ts.length + 1) (Window.ofTokens ts) with
  | error fault =>
    simp only [bind, Except.bind, hrun] at h
    cases h
  | ok r =>
    obtain ⟨all, ending, w'⟩ := r
    simp only [bind, Except.bind, hrun, pure, Except.pure] at h
    cases h
    exact ⟨all, w', rfl, rfl, rfl⟩

theorem depthBudget_eq (limit : Int) :
    depthBudget limit = if maxDepthLimit < limit then .error .depthLimitTooLarge
      else .ok (max 1000 limit).toNat := by
  unfold depthBudget DepthLimits.enter
  have hs : DepthLimits.standard.present = 1000 := rfl
  simp only [hs]
  by_cases hl : (1000 : Int) < limit
  · by_cases hm : maxDepthLimit < limit
    · rw [if_pos hm, if_pos hl, if_pos ⟨hl, hm⟩]
      rfl
    · rw [if_neg hm, if_pos hl, if_neg (fun h => hm h.2), Int.max_eq_right (by omega)]
      rfl
  · have hm : ¬ maxDepthLimit < limit := fun h => hl (Int.lt_trans (by decide) h)
    rw [if_neg hm, if_neg hl, if_neg (fun h => absurd h.1 (by decide)), Int.max_eq_left (by omega)]
    rfl

theorem le_of_depthBudget {limit : Int} (h : depthBudget limit = .ok depth) : limit ≤ depth := by
  rw [depthBudget_eq] at h
  split at h
  · cases h
  · cases h
    omega

namespace Source

variable {s : Source} {limits : Limits} {p : Parsed}

/-- What a parse of a source consists of. -/
theorem parse_run (h : s.parse limits = .ok p) :
    ∃ depth all w', depthBudget limits.depth = .ok depth ∧
      parseStatements limits.problems depth #[] (s.tokens.length + 1) (Window.ofTokens s.tokens) =
        .ok (all, p.ending, w') ∧
      p.problems = w'.problems ∧ p.program.statements = all.toList := by
  unfold parse at h
  cases hd : depthBudget limits.depth with
  | error fault =>
    rw [hd] at h
    cases h
  | ok depth =>
    rw [hd] at h
    obtain ⟨all, w', hrun, hproblems, hall⟩ := parseTokens_run h
    exact ⟨depth, all, w', rfl, hrun, hproblems, hall⟩

/-- The window at the start of a source. -/
theorem ofTokens_tokens (s : Source) : (Window.ofTokens s.tokens).tokens = s.tokens := by
  obtain ⟨last, he, -⟩ := s.tokens_eq
  exact ofTokens_tokens_of_ne_nil (by simp [he])

theorem ofTokens_ended (s : Source) : (Window.ofTokens s.tokens).Ended := by
  obtain ⟨last, hl, hk⟩ := s.tokens_ended
  exact ⟨last, by rwa [ofTokens_tokens], hk⟩

theorem ofTokens_problems (ts : List Token) : (Window.ofTokens ts).problems = #[] := by
  cases ts <;> rfl

theorem ofTokens_ahead_lt (s : Source) :
    (Window.ofTokens s.tokens).ahead.length < s.tokens.length + 1 := by
  have hlen := congrArg List.length s.ofTokens_tokens
  rw [Window.tokens, List.length_cons] at hlen
  omega

/-- What stands before the end of the text is known when the end comes only there. -/
theorem eq_of_append_eq {ts us vs : List Token} {t last : Token} (h : us ++ [last] = ts ++ t :: vs)
    (hk : t.kind = .endOfText) (hus : ∀ t ∈ us, t.kind ≠ .endOfText) : ts = us := by
  rcases List.append_eq_append_iff.1 h with ⟨xs, rfl, hxs⟩ | ⟨xs, rfl, hxs⟩
  · cases xs with
    | nil => rw [List.append_nil]
    | cons x xs =>
      have hlen := congrArg List.length hxs
      simp only [List.length_cons, List.length_nil, List.length_append] at hlen
      omega
  · cases xs with
    | nil => rw [List.append_nil]
    | cons x xs =>
      obtain ⟨rfl, -⟩ := List.cons.inj hxs
      exact absurd hk (hus t (List.mem_append_right _ (List.mem_cons_self ..)))

/-- A parse with limits that can be put in force ends in one way or another, or comes to an
integer literal that is too long. -/
theorem parse_ok_or_refused (s : Source) (hd : limits.depth ≤ maxDepthLimit) :
    (∃ p, s.parse limits = .ok p) ∨ ∃ t ∈ s.tokens, t.kind = .integer ∧
      maxDigits < t.text.length ∧ s.parse limits = .error (.literalTooLong t.text.length) := by
  unfold parse parseTokens
  rw [depthBudget_eq, if_neg (Int.not_lt.2 hd)]
  cases hrun : parseStatements limits.problems (max 1000 limits.depth).toNat #[]
    (s.tokens.length + 1) (Window.ofTokens s.tokens) with
  | error fault =>
    obtain ⟨t, ht, hk, hlong, rfl⟩ := parseStatements_refused hrun
    rw [ofTokens_tokens] at ht
    refine .inr ⟨t, ht, hk, hlong, ?_⟩
    simp only [bind, Except.bind, hrun]
  | ok r =>
    simp only [bind, Except.bind, hrun, pure, Except.pure]
    exact .inl ⟨_, rfl⟩

/-- So it ends if all integer literals are short enough. -/
theorem parse_ok (s : Source) (hd : limits.depth ≤ maxDepthLimit) (hl : Readable s.tokens) :
    ∃ p, s.parse limits = .ok p := by
  rcases s.parse_ok_or_refused hd with hp | ⟨t, ht, hk, hlong, -⟩
  · exact hp
  · exact absurd hlong (Nat.not_lt.2 (hl t ht hk))

/-- **A parse without a problem has read all tokens as the statements that it gives.** -/
theorem parse_reads (hl : 1 ≤ limits.problems) (h : s.parse limits = .ok p)
    (hp : p.problems = #[]) :
    p.ending = .complete ∧ Reads (.statements p.program.statements) s.programTokens .endOfText := by
  obtain ⟨depth, all, w', -, hrun, hproblems, hall⟩ := parse_run h
  obtain ⟨hend, hk, ns, ts, hns, ht, hr⟩ := parseStatements_reads s.ofTokens_ended
    s.ofTokens_ahead_lt (by rw [ofTokens_problems]; exact hl) hrun
    (by rw [ofTokens_problems, ← hproblems, hp])
  refine ⟨hend, ?_⟩
  obtain ⟨last, he, hlast, hnot⟩ := s.tokens_eq
  rw [ofTokens_tokens, he] at ht
  rw [hall, hns]
  exact eq_of_append_eq ht hk hnot ▸ hr

/-- **Tokens that are read as statements are parsed to them**, unless the nesting is too
deep. -/
theorem parse_of_reads {ns : List Node} (hl : 1 ≤ limits.problems) (h : s.parse limits = .ok p)
    (hd : 4 * s.tokens.length ≤ limits.depth ∨ ∀ place, p.ending ≠ .tooDeep place)
    (hr : Reads (.statements ns) s.programTokens .endOfText) :
    p.problems = #[] ∧ p.program.statements.map Node.erase = ns.map Node.erase := by
  obtain ⟨depth, all, w', hdepth, hrun, hproblems, hall⟩ := parse_run h
  obtain ⟨last, he, hlast, -⟩ := s.tokens_eq
  have hlen : s.programTokens.length + 1 = s.tokens.length := by
    rw [he, List.length_append, List.length_singleton]
  obtain ⟨all', w'', hrun', hall', -, hp'⟩ := @parseStatements_of_reads limits.problems
    (max depth (4 * s.tokens.length)) (s.tokens.length + 1) #[] (Window.ofTokens s.tokens)
    ns s.programTokens .endOfText last hr rfl (by omega) (by omega)
    (by rw [ofTokens_problems]; exact hl) hlast (by rw [ofTokens_tokens, he])
  -- a parse that is not short of levels does what one with enough of them does
  have hsame : parseStatements limits.problems depth #[] (s.tokens.length + 1)
      (Window.ofTokens s.tokens) = .ok (all', .complete, w'') := by
    rcases hd with hd | hd
    · have hle := le_of_depthBudget hdepth
      rwa [Nat.max_eq_left (by omega)] at hrun'
    · have := parseStatements_deepens (Nat.le_max_left depth (4 * s.tokens.length)) hrun hd
      rw [hrun, ← this, hrun']
  rw [hrun] at hsame
  injection hsame with hsame
  injection hsame with hall'' hsame
  injection hsame with _ hw
  subst hall'' hw
  refine ⟨by rw [hproblems, hp', ofTokens_problems], ?_⟩
  rw [hall, hall']
  rfl

end Source

end Ember

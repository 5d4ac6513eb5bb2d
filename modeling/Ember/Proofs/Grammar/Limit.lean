import Ember.Proofs.Grammar.Survey

/-!
# The limit on the number of problems

The limit is looked at between statements, and only there. So fewer problems than the limit
allows have been found wherever a statement of the program begins (`Source.survey_lastRound`),
and the problems beyond the limit are all of the last statement that was begun. A statement may
hold blocks and arguments with any number of problems, and all of these are kept
(`limit_exceeded`).
-/

namespace Ember

open Ember.Parser Survey

variable {limit : Int} {depth n : Nat} {found : Array Node} {v : Survey} {w w₁ : Window}

/-- How a survey came to its end from the window where its last round began. -/
inductive Survey.LastRound (limit : Int) (depth : Nat) (v : Survey) (w : Window) : Prop
  /-- The text ended there. -/
  | complete : w.current.kind = .endOfText → v.ending = .ok .complete → v.last = w →
      LastRound limit depth v w
  /-- The statement there was the one to reach the limit. -/
  | limited {statement : Node} {w₁ : Window} : w.current.kind ≠ .endOfText →
      parsePhrase depth .statement w = .ok statement w₁ → limit ≤ w₁.problems.size →
      v.ending = .ok .problemLimit → v.last = w₁ → LastRound limit depth v w
  /-- The statement there was given up. -/
  | givenUp {stop : ParseStop} {found : Array Node} {w₁ : Window} : w.current.kind ≠ .endOfText →
      parsePhrase depth .statement w = .error stop w₁ → v = givenUp found w₁ stop →
      LastRound limit depth v w

/-- Some window where a round begins is the last one. Up to there the limit was not reached, unless
it was reached before. -/
theorem surveyStatements_lastRound (limit : Int) (depth : Nat) (found : Array Node)
    (hw : w.Ended) (hn : w.ahead.length < n) :
    ∃ u : Window, u.tokens <:+ w.tokens ∧ (w.problems.size < limit → u.problems.size < limit) ∧
      (surveyStatements limit depth n found w).LastRound limit depth u := by
  induction n generalizing found w with
  | zero => exact absurd hn (Nat.not_lt_zero _)
  | succ n ih =>
    rw [surveyStatements]
    by_cases he : w.current.kind = .endOfText
    · rw [if_pos he]
      exact ⟨w, List.suffix_refl _, id, .complete he rfl rfl⟩
    rw [if_neg he]
    cases hs : parsePhrase depth .statement w with
    | error stop w₁ => exact ⟨w, List.suffix_refl _, id, .givenUp he hs rfl⟩
    | ok statement w₁ =>
      rw [behind]
      by_cases hl : limit ≤ w₁.problems.size
      · rw [if_pos hl]
        exact ⟨w, List.suffix_refl _, id, .limited he hs hl rfl rfl⟩
      rw [if_neg hl]
      have htokens := (leads_of_ok hs).tokens
      -- the statement leaves no more tokens ahead than there were, and one is passed behind it
      have hahead := List.length_pos_iff.2 (hw.ahead_ne_nil he)
      have hlength := htokens.length_le
      rw [Window.tokens, Window.tokens, List.length_cons, List.length_cons] at hlength
      have hshort : w₁.advance.ahead.length < n := by
        rw [Window.advance_ahead_length]
        omega
      have hbelow : (w₁.advance.problems.size : Int) < limit := by
        rw [Window.advance_problems]
        omega
      obtain ⟨u, hu, hsize, hlast⟩ :=
        ih (keep found statement) (hw.of_suffix htokens).advance hshort
      exact ⟨u, hu.trans (w₁.advance_tokens_suffix.trans htokens), fun _ => hsize hbelow, hlast⟩

/-- The problems that were found before the last round are kept. -/
theorem Survey.LastRound.problems (h : v.LastRound limit depth w) :
    w.problems.toList <+: v.last.problems.toList := by
  cases h with
  | complete _ _ hlast => exact hlast ▸ List.prefix_refl _
  | limited _ hs _ _ hlast =>
    rw [hlast]
    exact (leads_of_ok hs).problems
  | givenUp _ hs hv =>
    rw [hv]
    exact (leads_of_error hs).problems.trans (keeps_givenUp _ _ _).problems

/-- Unless the nesting is too deep, the others are those of the statement that was begun last. -/
theorem Survey.LastRound.size_le (h : v.LastRound limit depth w)
    (hdeep : ∀ place, v.ending ≠ .ok (.tooDeep place)) :
    v.last.problems.size ≤ ((parsePhrase depth .statement).after w).problems.size := by
  cases h with
  | complete _ _ hlast =>
    have hl : w.Leads _ _ := (parsePhrase_along depth .statement).run w
    have hlength := hl.problems.length_le
    rw [hlast]
    exact hlength
  | @limited _ w₁ _ hs _ _ hlast =>
    have hafter := after_of_ok hs
    exact Nat.le_of_eq (by rw [hlast, hafter])
  | @givenUp stop found w₁ _ hs hv =>
    rw [hv] at hdeep ⊢
    rw [after_of_error hs]
    cases stop with
    | tooDeep => exact absurd rfl (hdeep _)
    | literalTooLong digits => exact Nat.le_refl _

namespace Source

variable {s : Source} {limits : Limits} {p : Parsed}

/-- The problems that a parse reports are those that were found. -/
theorem problems_of_parse (h : s.parse limits = .ok p) :
    p.problems = (s.survey limits).last.problems ∧ (s.survey limits).ending = .ok p.ending := by
  rw [parse_eq_survey, Survey.parsed] at h
  cases he : (s.survey limits).ending with
  | error fault =>
    rw [he] at h
    cases h
  | ok ending =>
    rw [he] at h
    cases h
    exact ⟨rfl, rfl⟩

/-- A survey with limits that can be put in force has a last round. -/
theorem exists_lastRound (hlimit : 1 ≤ limits.problems)
    (hdepth : depthBudget limits.depth = .ok depth) :
    ∃ w : Window, w.tokens <:+ s.tokens ∧ w.problems.size < limits.problems ∧
      (s.survey limits).LastRound limits.problems depth w := by
  have hnone : ((Window.ofTokens s.tokens).problems.size : Int) < limits.problems := by
    rw [ofTokens_problems]
    exact hlimit
  obtain ⟨w, hw, hsize, hlast⟩ :=
    surveyStatements_lastRound limits.problems depth #[] s.ofTokens_ended s.ofTokens_ahead_lt
  have hsurvey : (s.survey limits).LastRound limits.problems depth w := by
    unfold survey
    rwa [hdepth]
  rw [ofTokens_tokens] at hw
  exact ⟨w, hw, hsize hnone, hsurvey⟩

/-- **The limit is reached by one statement of the program.** There is a last place where one
begins, or where the text ends; fewer problems than the limit allows were found before it, they
are kept, and all others are of the statement there. -/
theorem survey_lastRound (hlimit : 1 ≤ limits.problems)
    (hdepth : depthBudget limits.depth = .ok depth) :
    ∃ w : Window, w.tokens <:+ s.tokens ∧ w.problems.size < limits.problems ∧
      w.problems.toList <+: (s.survey limits).last.problems.toList ∧
      (s.survey limits).LastRound limits.problems depth w ∧
      ∀ p, s.parse limits = .ok p → p.problems = (s.survey limits).last.problems := by
  obtain ⟨w, hw, hsize, hlast⟩ := exists_lastRound (s := s) hlimit hdepth
  exact ⟨w, hw, hsize, hlast.problems, hlast, fun p hp => (problems_of_parse hp).1⟩

end Source

/-- A call with two arguments, and a problem in each of them. -/
def signArguments : Source := { text := "f(+, +)" }

/-- The problems of the call are found in its first round. -/
theorem survey_lastRound_arguments : ∃ w : Window, w.tokens <:+ signArguments.tokens ∧
    w.problems.size = 0 ∧ (signArguments.survey { problems := 1 }).LastRound 1 10000 w ∧
    (signArguments.survey { problems := 1 }).last.problems.size = 2 := by
  have hlimit : 1 ≤ ({ problems := 1 } : Limits).problems := Int.le_refl 1
  have hdepth : depthBudget ({ problems := 1 } : Limits).depth = .ok 10000 := by
    rw [depthBudget_eq]
    rfl
  obtain ⟨w, hw, hsize, -, hlast, -⟩ := signArguments.survey_lastRound hlimit hdepth
  have hzero : w.problems.size = 0 := by
    dsimp only at hsize
    omega
  exact ⟨w, hw, hzero, hlast, by decide +kernel⟩

/-- **The limit is not one on the number of problems**: a parse may find more. -/
theorem limit_exceeded : ¬ ∀ (s : Source) (limits : Limits) (p : Parsed), 1 ≤ limits.problems →
    s.parse limits = .ok p → p.problems.size ≤ limits.problems := by
  intro hkept
  have hrun : (signArguments.parse { problems := 1 }).toOption.map (·.problems.size) = some 2 := by
    decide +kernel
  obtain ⟨p, hp, hsize⟩ := ok_of_toOption hrun
  have hle := hkept signArguments { problems := 1 } p (Int.le_refl 1) hp
  rw [hsize] at hle
  exact absurd hle (by decide)

namespace Source

variable {s : Source} {limits : Limits} {p : Parsed}

/-- Where no statement of a program has more than one problem, the limit is one. -/
theorem problems_le_limit (hlimit : 1 ≤ limits.problems) (h : s.parse limits = .ok p)
    (hdeep : ∀ place, p.ending ≠ .tooDeep place)
    (hone : ∀ depth w, w.tokens <:+ s.tokens →
      ((parsePhrase depth .statement).after w).problems.size ≤ w.problems.size + 1) :
    p.problems.size ≤ limits.problems := by
  obtain ⟨depth, -, -, hdepth, -⟩ := parse_run h
  obtain ⟨w, hw, hsize, hlast⟩ := exists_lastRound (s := s) hlimit hdepth
  obtain ⟨hproblems, hending⟩ := problems_of_parse h
  have hle := hlast.size_le fun place hplace => by
    rw [hending] at hplace
    exact hdeep place (Except.ok.inj hplace)
  have hstatement := hone depth w hw
  rw [hproblems]
  omega

end Source

end Ember

import Ember.Proofs.Grammar.Limit
import Ember.Proofs.Session.Ends

/-!
# A higher limit on the problems

All that the limit on the number of problems does is to end a parse between two statements.
With a higher limit the parse goes on from there: what it had found it finds again, in the same
order (`Source.survey_truncates`). A text in which a parse finds nothing wrong is the same program
with every limit, and comes to the same (`Source.problem_limit_truncates`).
-/

namespace Ember

open Ember.Parser

/-! ## What is found -/

/-- The survey came to an end at the limit, behind a statement, and the other one keeps what was
found there. -/
structure Survey.CutOff (limit : Int) (v v' : Survey) : Prop where
  ending : v.ending = .ok .problemLimit
  reached : limit ≤ v.last.problems.size
  keeps : v'.Keeps v.statements v.last

/-- **With a higher limit a survey is the same, or goes on behind the statement with which the
lower one was reached.** -/
theorem surveyStatements_truncates {limit limit' : Int} (hl : limit ≤ limit') (depth n : Nat)
    (found : Array Node) (w : Window) :
    surveyStatements limit' depth n found w = surveyStatements limit depth n found w ∨
      (surveyStatements limit depth n found w).CutOff limit
        (surveyStatements limit' depth n found w) := by
  induction n generalizing found w with
  | zero => exact .inl rfl
  | succ n ih =>
    rw [surveyStatements, surveyStatements]
    by_cases he : w.current.kind = .endOfText
    · rw [if_pos he, if_pos he]
      exact .inl rfl
    rw [if_neg he, if_neg he]
    cases hs : parsePhrase depth .statement w with
    | error stop w₁ => exact .inl rfl
    | ok statement w₁ =>
      rw [Survey.behind, Survey.behind]
      by_cases hsize : limit ≤ w₁.problems.size
      · rw [if_pos hsize]
        by_cases hsize' : limit' ≤ w₁.problems.size
        · rw [if_pos hsize']
          exact .inl rfl
        · rw [if_neg hsize']
          have hkeeps := surveyStatements_keeps limit' depth n (keep found statement) w₁.advance
          refine .inr ⟨rfl, hsize, hkeeps.statements, ?_⟩
          simpa only [Window.advance_problems] using hkeeps.problems
      · have hsize' : ¬ limit' ≤ w₁.problems.size := fun h => hsize (Int.le_trans hl h)
        rw [if_neg hsize, if_neg hsize']
        exact ih (keep found statement) w₁.advance

/-- What one survey found is the beginning of what another one found, and it is enough to reach
the limit where the other one does. -/
structure Survey.Begins (limit : Int) (v v' : Survey) : Prop where
  statements : v.statements.toList <+: v'.statements.toList
  problems : v.last.problems.toList <+: v'.last.problems.toList
  enough : min limit v'.last.problems.size ≤ v.last.problems.size

theorem Survey.Begins.refl (limit : Int) (v : Survey) : v.Begins limit v :=
  ⟨List.prefix_refl _, List.prefix_refl _, Int.min_le_right _ _⟩

theorem Survey.CutOff.begins {limit : Int} {v v' : Survey} (h : v.CutOff limit v') :
    v.Begins limit v' :=
  ⟨h.keeps.statements, h.keeps.problems, Int.le_trans (Int.min_le_left _ _) h.reached⟩

theorem Survey.Begins.diagnostics {limit : Int} {v v' : Survey} (h : v.Begins limit v')
    (s : Source) : v.diagnostics s <+: v'.diagnostics s :=
  h.problems.map _

/-- Where something is found wrong at all, enough is found to say so. -/
theorem Survey.Begins.problems_eq_empty_iff {limit : Int} {v v' : Survey} (h : v.Begins limit v')
    (hlimit : 1 ≤ limit) : v.last.problems = #[] ↔ v'.last.problems = #[] := by
  have henough := h.enough
  rw [← Array.size_eq_zero_iff, ← Array.size_eq_zero_iff]
  have hle : v.last.problems.size ≤ v'.last.problems.size := h.problems.length_le
  omega

namespace Source

variable {s : Source} {limit limit' depth : Int} {p p' : Parsed}

/-- A survey of a source with a higher limit is the same, or goes on. -/
theorem survey_truncates (s : Source) (depth : Int) (hl : limit ≤ limit') :
    s.survey ⟨limit', depth⟩ = s.survey ⟨limit, depth⟩ ∨
      (s.survey ⟨limit, depth⟩).CutOff limit (s.survey ⟨limit', depth⟩) := by
  unfold survey
  cases depthBudget depth with
  | error fault => exact .inl rfl
  | ok levels => exact surveyStatements_truncates hl levels _ #[] _

theorem survey_begins (s : Source) (depth : Int) (hl : limit ≤ limit') :
    (s.survey ⟨limit, depth⟩).Begins limit (s.survey ⟨limit', depth⟩) := by
  rcases s.survey_truncates depth hl with he | hcut
  · rw [he]
    exact .refl limit _
  · exact hcut.begins

/-! ## What a parse returns -/

/-- Where a parse returns with the higher limit, it returns with the lower one. -/
theorem parse_ok_of_le (hl : limit ≤ limit') (h' : s.parse ⟨limit', depth⟩ = .ok p') :
    ∃ p, s.parse ⟨limit, depth⟩ = .ok p := by
  rw [parse_eq_survey] at h' ⊢
  rcases s.survey_truncates depth hl with he | hcut
  · rw [← he]
    exact ⟨p', h'⟩
  · rw [Survey.parsed, hcut.ending]
    exact ⟨_, rfl⟩

/-- Where nothing is found wrong with the lower limit, a parse is the same with the higher one. -/
theorem parse_eq_of_no_problems (hlimit : 1 ≤ limit) (hl : limit ≤ limit')
    (hnone : (s.survey ⟨limit, depth⟩).last.problems = #[]) :
    s.parse ⟨limit', depth⟩ = s.parse ⟨limit, depth⟩ := by
  rcases s.survey_truncates depth hl with he | hcut
  · rw [parse_eq_survey, parse_eq_survey, he]
  · have hreached := hcut.reached
    rw [hnone] at hreached
    exact absurd (Int.le_trans hlimit hreached) (by decide)

/-- **The limit on the problems only cuts a parse off.** What is found with the lower limit is the
beginning of what is found with the higher one, and is as much as the lower one asks for, whether
or not the parse returns; where it returns with the higher limit it returns with the lower one. So
a parse finds something wrong with both limits or with neither, and then it returns the same
program, which evaluates to the same. -/
theorem problem_limit_truncates (s : Source) (depth : Int) (hlimit : 1 ≤ limit)
    (hl : limit ≤ limit') :
    (s.survey ⟨limit, depth⟩).Begins limit (s.survey ⟨limit', depth⟩) ∧
    (∀ p', s.parse ⟨limit', depth⟩ = .ok p' → ∃ p, s.parse ⟨limit, depth⟩ = .ok p ∧
      p.diagnostics s <+: p'.diagnostics s ∧ p.program.statements <+: p'.program.statements ∧
      min limit p'.problems.size ≤ p.problems.size ∧
      (p.diagnostics s = [] ↔ p'.diagnostics s = []) ∧ (p.diagnostics s = [] → p = p')) ∧
    (∀ p, s.parse ⟨limit, depth⟩ = .ok p → p.diagnostics s = [] →
      s.parse ⟨limit', depth⟩ = .ok p ∧
      ∀ (h : Heap) (f : FrameId) (rounds : Nat),
        h.evaluate f s ⟨limit', depth⟩ rounds = h.evaluate f s ⟨limit, depth⟩ rounds) ∧
    ∀ fault, s.parse ⟨limit, depth⟩ = .error fault → s.parse ⟨limit', depth⟩ = .error fault := by
  have hbegins := s.survey_begins depth hl
  have hempty : ∀ p : Parsed, p.diagnostics s = [] ↔ p.problems = #[] := fun p => by
    rw [Parsed.diagnostics, List.map_eq_nil_iff, Array.toList_eq_nil_iff]
  have hsame : ∀ p, s.parse ⟨limit, depth⟩ = .ok p → p.diagnostics s = [] →
      s.parse ⟨limit', depth⟩ = s.parse ⟨limit, depth⟩ := fun p hp hnone =>
    parse_eq_of_no_problems hlimit hl ((problems_of_parse hp).1.symm.trans ((hempty p).1 hnone))
  refine ⟨hbegins, fun p' hp' => ?_, fun p hp hnone => ?_, fun fault hp => ?_⟩
  · obtain ⟨p, hp⟩ := parse_ok_of_le hl hp'
    obtain ⟨hdiagnostics, hstatements⟩ := survey_of_parse hp
    obtain ⟨hdiagnostics', hstatements'⟩ := survey_of_parse hp'
    have hproblems := (problems_of_parse hp).1
    have hproblems' := (problems_of_parse hp').1
    refine ⟨p, hp, ?_, ?_, ?_, ?_, fun hnone => ?_⟩
    · rw [← hdiagnostics, ← hdiagnostics']
      exact hbegins.diagnostics s
    · rw [← hstatements, ← hstatements']
      exact hbegins.statements
    · rw [hproblems, hproblems']
      exact hbegins.enough
    · rw [hempty, hempty, hproblems, hproblems']
      exact hbegins.problems_eq_empty_iff hlimit
    · have heq := hsame p hp hnone
      rw [hp, hp'] at heq
      exact (Except.ok.inj heq).symm
  · have heq := hsame p hp hnone
    refine ⟨heq.trans hp, fun h f rounds => ?_⟩
    unfold Heap.evaluate
    rw [heq]
  · rw [parse_eq_survey] at hp ⊢
    rcases s.survey_truncates depth hl with he | hcut
    · rwa [he]
    · rw [Survey.parsed, hcut.ending] at hp
      cases hp

/-- Three tokens that no statement starts with, and a statement behind the first of them. -/
def strayParentheses : Source := { text := ") x; ) )" }

/-- With the limit one the parse ends at the first of them. -/
theorem problem_limit_truncates_stray : ∃ p p',
    strayParentheses.parse ⟨1, 10000⟩ = .ok p ∧ strayParentheses.parse ⟨3, 10000⟩ = .ok p' ∧
    p.diagnostics strayParentheses <+: p'.diagnostics strayParentheses ∧
    p.program.statements <+: p'.program.statements ∧
    p.problems.size = 1 ∧ p'.problems.size = 3 ∧
    p.program.statements.length = 0 ∧ p'.program.statements.length = 1 := by
  have hlow : (strayParentheses.parse ⟨1, 10000⟩).toOption.map (fun p =>
      (p.problems.size, p.program.statements.length)) = some (1, 0) := by decide +kernel
  have hhigh : (strayParentheses.parse ⟨3, 10000⟩).toOption.map (fun p =>
      (p.problems.size, p.program.statements.length)) = some (3, 1) := by decide +kernel
  obtain ⟨p', hp', hsizes'⟩ := ok_of_toOption hhigh
  obtain ⟨p, hp, hdiagnostics, hstatements, -⟩ :=
    (strayParentheses.problem_limit_truncates 10000 (Int.le_refl 1) (by decide : (1 : Int) ≤ 3)).2.1
      p' hp'
  rw [hp] at hlow
  obtain ⟨hsize, hlength⟩ := Prod.mk.inj (Option.some.inj hlow)
  obtain ⟨hsize', hlength'⟩ := Prod.mk.inj hsizes'
  exact ⟨p, p', hp, hp', hdiagnostics, hstatements, hsize, hsize', hlength, hlength'⟩

end Source

end Ember

import Ember.Proofs.Grammar.Program

/-!
# What a parse has found

A parse that is refused returns nothing, though it has found statements and problems by
then. `Source.survey` keeps what was found however the parse ends, and is the parse
wherever that returns (`Source.parse_eq_survey`).

A survey says that the nesting is too deep at its end or not at all. With more levels it is
the same, or goes on where it had ended so (`surveyStatements_deepens`).
-/

namespace Ember

open Ember.Parser

/-- What a parse has found where it ends or is refused. -/
structure Survey where
  statements : Array Node
  ending : Except Fault ParseEnd
  /-- The window it came to. -/
  last : Window

namespace Survey

/-- The diagnostics of what was found in the given source. -/
def diagnostics (v : Survey) (s : Source) : List Diagnostic :=
  v.last.problems.toList.map (·.diagnostic s)

/-- The parse that begins at `first` and finds this. -/
def parsed (first : Token) (v : Survey) : Except Fault Parsed :=
  v.ending.map fun ending =>
    { program := ⟨some ⟨first.span.start, v.last.current.span.stop⟩, v.statements.toList⟩
      problems := v.last.problems
      ending }

/-- What was found up to a statement that is given up. That the nesting is too deep is
noted where it was given up; the statement is dropped. -/
def givenUp (found : Array Node) (w : Window) : ParseStop → Survey
  | .tooDeep => ⟨found, .ok (.tooDeep w.current.span.start), w.note .tooDeep w.current w.current⟩
  | .literalTooLong digits => ⟨found, .error (.literalTooLong digits), w⟩

/-- What is found from a statement on; `rest` finds what stands behind it. -/
def behind (limit : Int) (found : Array Node) (rest : Array Node → Window → Survey) :
    EStateM.Result ParseStop Window Node → Survey
  | .error stop w => givenUp found w stop
  | .ok statement w =>
    if limit ≤ w.problems.size then ⟨keep found statement, .ok .problemLimit, w⟩
    else rest (keep found statement) w.advance

end Survey

open Survey

/-- What is found from a window on, in at most as many rounds as the number says. -/
def surveyStatements (limit : Int) (depth : Nat) : Nat → Array Node → Window → Survey
  | 0, found, w => ⟨found, .ok .complete, w⟩
  | n + 1, found, w =>
    if w.current.kind = .endOfText then ⟨found, .ok .complete, w⟩
    else behind limit found (surveyStatements limit depth n) (parsePhrase depth .statement w)

variable {limit : Int} {depth depth' n : Nat} {found : Array Node} {w w₁ : Window}

/-- A parse is a survey that is thrown away when it is refused. -/
theorem parseStatements_eq_survey (limit : Int) (depth n : Nat) (found : Array Node) (w : Window) :
    parseStatements limit depth found n w =
      (surveyStatements limit depth n found w).ending.map fun ending =>
        ((surveyStatements limit depth n found w).statements, ending,
          (surveyStatements limit depth n found w).last) := by
  induction n generalizing found w with
  | zero => rfl
  | succ n ih =>
    rw [surveyStatements]
    cases parseStatements_round limit depth found n w with
    | complete he hr =>
      rw [hr, if_pos he]
      rfl
    | refused he hs hr =>
      rw [hr, if_neg he, hs]
      rfl
    | tooDeep he hs hr =>
      rw [hr, if_neg he, hs]
      rfl
    | problemLimit he hs hl hr =>
      rw [hr, if_neg he, hs, behind, if_pos hl]
      rfl
    | next he hs hl hr =>
      rw [← hr, if_neg he, hs, behind, if_neg hl]
      exact ih (keep found _) _

/-! ## Findings are kept -/

/-- What was found before a window is kept in the survey. -/
structure Survey.Keeps (v : Survey) (found : Array Node) (w : Window) : Prop where
  statements : found.toList <+: v.statements.toList
  problems : w.problems.toList <+: v.last.problems.toList

theorem Survey.keeps_givenUp (found : Array Node) (w : Window) (stop : ParseStop) :
    (givenUp found w stop).Keeps found w := by
  cases stop with
  | tooDeep =>
    refine ⟨List.prefix_refl _, ?_⟩
    rw [givenUp, Window.note, Array.toList_push]
    exact List.prefix_append _ _
  | literalTooLong digits => exact ⟨List.prefix_refl _, List.prefix_refl _⟩

theorem prefix_keep (found : Array Node) (statement : Node) :
    found.toList <+: (keep found statement).toList := by
  unfold keep
  split
  · exact List.prefix_refl _
  · rw [Array.toList_push]
    exact List.prefix_append _ _

/-- What is found from a statement on adds to what was found when it ended. -/
theorem Survey.keeps_behind {rest : Array Node → Window → Survey}
    (hrest : ∀ found w, (rest found w).Keeps found w) (limit : Int) (found : Array Node)
    (x : Parser Node) (w : Window) :
    (behind limit found rest (x w)).Keeps found (x.after w) := by
  unfold after
  cases x w with
  | error stop w₁ => exact keeps_givenUp found w₁ stop
  | ok statement w₁ =>
    rw [behind]
    split
    · exact ⟨prefix_keep found statement, List.prefix_refl _⟩
    · have h := hrest (keep found statement) w₁.advance
      refine ⟨(prefix_keep found statement).trans h.statements, ?_⟩
      simpa only [Window.advance_problems, Run.window] using h.problems

theorem surveyStatements_keeps (limit : Int) (depth n : Nat) (found : Array Node) (w : Window) :
    (surveyStatements limit depth n found w).Keeps found w := by
  induction n generalizing found w with
  | zero => exact ⟨List.prefix_refl _, List.prefix_refl _⟩
  | succ n ih =>
    rw [surveyStatements]
    split
    · exact ⟨List.prefix_refl _, List.prefix_refl _⟩
    · have h := keeps_behind ih limit found (parsePhrase depth .statement) w
      have hl : w.Leads _ _ := (parsePhrase_along depth .statement).run w
      exact ⟨h.statements, hl.problems.trans h.problems⟩

/-! ## More levels -/

/-- Nothing was said yet about the nesting. -/
def Window.Shallow (w : Window) : Prop :=
  ∀ p ∈ w.problems, p.cause ≠ .tooDeep

theorem Window.Leads.shallow {stop : Option ParseStop} (h : w.Leads stop w₁) (hw : w.Shallow) :
    w₁.Shallow :=
  fun p hp => (h.causes p hp).elim (hw p) id

theorem Window.Shallow.advance (hw : w.Shallow) : w.advance.Shallow := by
  unfold Shallow
  rwa [advance_problems]

theorem Window.shallow_ofTokens (ts : List Token) : (ofTokens ts).Shallow := by
  unfold Shallow
  rw [Source.ofTokens_problems]
  simp

/-- The survey came to an end because the nesting is too deep at this window. It says so
after all that was found there, and had not said so before. -/
structure Survey.Exhausted (v : Survey) (w : Window) : Prop where
  ending : v.ending = .ok (.tooDeep w.current.span.start)
  last : v.last = w.note .tooDeep w.current w.current
  shallow : w.Shallow

/-- The second survey goes on where the first one came to an end because the nesting is
too deep: it keeps what was found there. -/
def Survey.GoesOn (v v' : Survey) : Prop :=
  ∃ w, v.Exhausted w ∧ v'.Keeps v.statements w

/-- **With more levels a survey is the same, or goes on where it had ended because the
nesting is too deep.** -/
theorem surveyStatements_deepens (hd : depth ≤ depth') (limit : Int) (n : Nat) (found : Array Node)
    (hw : w.Shallow) :
    ((surveyStatements limit depth n found w).last.Shallow ∧
      surveyStatements limit depth' n found w = surveyStatements limit depth n found w) ∨
    (surveyStatements limit depth n found w).GoesOn (surveyStatements limit depth' n found w) := by
  induction n generalizing found w with
  | zero => exact .inl ⟨hw, rfl⟩
  | succ n ih =>
    rw [surveyStatements, surveyStatements]
    by_cases he : w.current.kind = .endOfText
    · rw [if_pos he, if_pos he]
      exact .inl ⟨hw, rfl⟩
    rw [if_neg he, if_neg he]
    rcases (parsePhrase_deepens hd .statement).run w with hs' | ⟨w₁, hs, hl⟩
    · -- the statement is the same
      cases hs : parsePhrase depth .statement w with
      | error stop w₁ =>
        have hw₁ := (leads_of_error hs).shallow hw
        rw [hs', hs]
        cases stop with
        | tooDeep => exact .inr ⟨w₁, ⟨rfl, rfl, hw₁⟩, keeps_givenUp found w₁ .tooDeep⟩
        | literalTooLong digits => exact .inl ⟨hw₁, rfl⟩
      | ok statement w₁ =>
        have hw₁ := (leads_of_ok hs).shallow hw
        rw [hs', hs, behind, behind]
        split
        · exact .inl ⟨hw₁, rfl⟩
        · exact ih _ hw₁.advance
    · -- it was too deep; with more levels the parse comes at least to where it was given up
      have hkeeps := keeps_behind (surveyStatements_keeps limit depth' n) limit found
        (parsePhrase depth' .statement) w
      rw [hs]
      exact .inr ⟨w₁, ⟨rfl, rfl, (leads_of_error hs).shallow hw⟩, hkeeps.statements,
        hl.problems.trans hkeeps.problems⟩

/-! ## Sources -/

namespace Source

/-- What a parse of a source has found where it ends or is refused. -/
def survey (s : Source) (limits : Limits) : Survey :=
  match depthBudget limits.depth with
  | .error fault => ⟨#[], .error fault, Window.ofTokens s.tokens⟩
  | .ok depth =>
    surveyStatements limits.problems depth (s.tokens.length + 1) #[] (Window.ofTokens s.tokens)

/-- **A parse returns what it has found, unless it is refused.** -/
theorem parse_eq_survey (s : Source) (limits : Limits) :
    s.parse limits = (s.survey limits).parsed (Window.ofTokens s.tokens).current := by
  unfold parse survey
  cases depthBudget limits.depth with
  | error fault => rfl
  | ok depth =>
    simp only [bind, Except.bind, parseTokens]
    rw [parseStatements_eq_survey]
    unfold Survey.parsed
    cases (surveyStatements limits.problems depth (s.tokens.length + 1) #[]
      (Window.ofTokens s.tokens)).ending with
    | error fault => rfl
    | ok ending => rfl

/-- What a parse that returns has found. -/
theorem survey_of_parse {s : Source} {limits : Limits} {p : Parsed} (h : s.parse limits = .ok p) :
    (s.survey limits).diagnostics s = p.diagnostics s ∧
      (s.survey limits).statements.toList = p.program.statements := by
  rw [parse_eq_survey, Survey.parsed] at h
  cases he : (s.survey limits).ending with
  | error fault =>
    rw [he] at h
    cases h
  | ok ending =>
    rw [he] at h
    cases h
    exact ⟨rfl, rfl⟩

/-- A survey that came to an end because the nesting is too deep is that of a parse that
returns. -/
theorem parse_of_exhausted {s : Source} {limits : Limits} {w : Window}
    (h : (s.survey limits).Exhausted w) : ∃ p, s.parse limits = .ok p := by
  rw [parse_eq_survey, Survey.parsed, h.ending]
  exact ⟨_, rfl⟩

/-- With a higher limit a survey is the same, or goes on where it had ended because the
nesting is too deep. -/
theorem survey_deepens (s : Source) (problems : Int) {depth depth' : Int} (hd : depth ≤ depth')
    (hmax : depth' ≤ maxDepthLimit) :
    ((s.survey ⟨problems, depth⟩).last.Shallow ∧
      s.survey ⟨problems, depth'⟩ = s.survey ⟨problems, depth⟩) ∨
    (s.survey ⟨problems, depth⟩).GoesOn (s.survey ⟨problems, depth'⟩) := by
  unfold survey
  simp only [depthBudget_eq, if_neg (Int.not_lt.2 hmax),
    if_neg (Int.not_lt.2 (Int.le_trans hd hmax))]
  exact surveyStatements_deepens (by omega) problems _ #[] (Window.shallow_ofTokens s.tokens)

end Source

end Ember

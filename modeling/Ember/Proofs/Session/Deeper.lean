import Ember.Proofs.Grammar.Survey
import Ember.Proofs.Session.Ends

/-!
# A higher limit on the nesting

All that a limit on the nesting does is to make a parse or an evaluation end too early, and
then the parse or the evaluation says so. With a higher limit nothing else changes, and a
parse that ended early goes on from there (`Source.limit_deepens`).
-/

namespace Ember

/-! ## Parsing -/

theorem SyntaxCause.code_tooDeep_iff {c : SyntaxCause} : c.code = "E106" ↔ c = .tooDeep := by
  cases c <;> simp [code]

theorem Window.Shallow.code_ne {w : Window} (hw : w.Shallow) {s : Source} {d : Diagnostic}
    (hd : d ∈ w.problems.toList.map (·.diagnostic s)) : d.code ≠ "E106" := by
  obtain ⟨p, hp, rfl⟩ := List.mem_map.1 hd
  exact fun hc => hw p (Array.mem_toList_iff.1 hp) (SyntaxCause.code_tooDeep_iff.1 hc)

/-- The diagnostics end with the one on the nesting. -/
theorem Survey.Exhausted.diagnostics_eq {v : Survey} {w : Window} (h : v.Exhausted w) (s : Source) :
    ∃ last, v.diagnostics s = w.problems.toList.map (·.diagnostic s) ++ [last] ∧
      last.code = "E106" := by
  refine ⟨Problem.diagnostic ⟨.tooDeep, w.current.span, w.current.span.start.line⟩ s, ?_, rfl⟩
  rw [Survey.diagnostics, h.last, Window.note, Array.toList_push, List.map_append]
  rfl

theorem Survey.Keeps.diagnostics {v : Survey} {found : Array Node} {w : Window}
    (h : v.Keeps found w) (s : Source) :
    w.problems.toList.map (·.diagnostic s) <+: v.diagnostics s :=
  h.problems.map _

namespace Source

variable {problems depth depth' : Int} {s : Source}

/-- A parse that does not complain about the nesting finds the same with a higher limit. -/
theorem survey_eq_of_not_deep (hd : depth ≤ depth') (hmax : depth' ≤ maxDepthLimit)
    (h : ∀ p, s.parse ⟨problems, depth⟩ = .ok p → ∀ d ∈ p.diagnostics s, d.code ≠ "E106") :
    s.survey ⟨problems, depth'⟩ = s.survey ⟨problems, depth⟩ := by
  rcases s.survey_deepens problems hd hmax with ⟨-, he⟩ | ⟨w, hw, -⟩
  · exact he
  · obtain ⟨p, hp⟩ := parse_of_exhausted hw
    obtain ⟨last, hlast, hcode⟩ := hw.diagnostics_eq s
    rw [(survey_of_parse hp).1] at hlast
    exact absurd hcode (h p hp last (by simp [hlast]))

/-- One that complains about the nesting ends there, and goes on with a higher limit. -/
theorem survey_of_deep (hd : depth ≤ depth') (hmax : depth' ≤ maxDepthLimit) {p : Parsed}
    (hp : s.parse ⟨problems, depth⟩ = .ok p) (h : ∃ d ∈ p.diagnostics s, d.code = "E106") :
    ∃ before last, p.diagnostics s = before ++ [last] ∧ last.code = "E106" ∧
      (∀ d ∈ before, d.code ≠ "E106") ∧
      before <+: (s.survey ⟨problems, depth'⟩).diagnostics s ∧
      p.program.statements <+: (s.survey ⟨problems, depth'⟩).statements.toList := by
  obtain ⟨hdiagnostics, hstatements⟩ := survey_of_parse hp
  rcases s.survey_deepens problems hd hmax with ⟨hw, -⟩ | ⟨w, hw, hkeeps⟩
  · obtain ⟨d, hmem, hcode⟩ := h
    rw [← hdiagnostics] at hmem
    exact absurd hcode (hw.code_ne hmem)
  · obtain ⟨last, hlast, hcode⟩ := hw.diagnostics_eq s
    refine ⟨_, last, hdiagnostics.symm.trans hlast, hcode, fun d hd => hw.shallow.code_ne hd,
      hkeeps.diagnostics s, ?_⟩
    rw [← hstatements]
    exact hkeeps.statements

end Source

/-! ## Evaluating -/

namespace Heap

variable {h : Heap} {f : FrameId} {s : Source} {problems depth depth' : Int}

/-- With a higher limit a program that was not nested too deeply for evaluation does the same. -/
theorem run_deepens (h : Heap) (f : FrameId) (program : Program) (rounds : Nat)
    (hd : depth ≤ depth') (hmax : depth' ≤ maxDepthLimit) :
    (∃ d, (h.run f program depth rounds).1 = .ok (.failed .tooDeep d) ∧ d.code = "E406") ∨
      h.run f program depth' rounds = h.run f program depth rounds := by
  unfold run
  rw [depthBudget_eq, depthBudget_eq, if_neg (Int.not_lt.2 hmax),
    if_neg (Int.not_lt.2 (Int.le_trans hd hmax))]
  simp only [Program.toNode]
  rcases program_extends (.inl (Eq.refl rounds))
    (.inr ⟨(by omega : (max 1000 depth).toNat ≤ (max 1000 depth').toNat), rfl⟩)
    program.span program.statements f h with ⟨h', hrun⟩ | hrun
  · rw [hrun]
    exact .inl ⟨_, rfl, rfl⟩
  · rw [hrun]
    exact .inr rfl

/-- A call that does not complain about the nesting does the same with a higher limit. -/
theorem evaluate_deepens {rounds : Nat} (hd : depth ≤ depth') (hmax : depth' ≤ maxDepthLimit)
    (hquiet : ∀ o, Evaluated.result (h.evaluate f s ⟨problems, depth⟩ rounds).1 = .ok o →
      ∀ d ∈ o.diagnostics, d.code ≠ "E106" ∧ d.code ≠ "E406") :
    h.evaluate f s ⟨problems, depth'⟩ rounds = h.evaluate f s ⟨problems, depth⟩ rounds := by
  -- the parse is the same: its diagnostics would have been reported
  have hparse : s.parse ⟨problems, depth'⟩ = s.parse ⟨problems, depth⟩ := by
    rw [Source.parse_eq_survey, Source.parse_eq_survey, Source.survey_eq_of_not_deep hd hmax]
    intro p hp d hmem
    have hne : p.problems ≠ #[] := by
      intro hnone
      simp [Parsed.diagnostics, hnone] at hmem
    rw [evaluate_of_problems h f rounds hp hne] at hquiet
    exact (hquiet _ rfl d hmem).1
  cases hp : s.parse ⟨problems, depth⟩ with
  | error fault =>
    unfold evaluate
    rw [hparse, hp]
  | ok p =>
    by_cases hne : p.problems = #[]
    · rw [evaluate_of_no_problems h f rounds (hparse.trans hp) hne,
        evaluate_of_no_problems h f rounds hp hne]
      rw [evaluate_of_no_problems h f rounds hp hne] at hquiet
      dsimp only at hquiet ⊢
      rcases run_deepens h f p.program rounds hd hmax with ⟨d, hrun, hcode⟩ | hrun
      · rw [hrun] at hquiet
        exact absurd hcode (hquiet _ rfl _ (List.mem_singleton_self _)).2
      · rw [hrun]
    · rw [evaluate_of_problems h f rounds (hparse.trans hp) hne,
        evaluate_of_problems h f rounds hp hne]

end Heap

/-- **A higher limit on the nesting only takes complaints about the nesting away.** A parse
that does not complain about it is the same with the higher limit. One that does complains
once, at its end; all that it had found before is found with the higher limit as well. An
evaluation that complains about the nesting neither of the text nor of a call does the same
with the higher limit, to any heap. -/
theorem Source.limit_deepens (s : Source) (problems : Int) {depth depth' : Int}
    (hd : depth ≤ depth') (hmax : depth' ≤ maxDepthLimit) :
    ((∀ p, s.parse ⟨problems, depth⟩ = .ok p → ∀ d ∈ p.diagnostics s, d.code ≠ "E106") →
      s.survey ⟨problems, depth'⟩ = s.survey ⟨problems, depth⟩ ∧
      s.parse ⟨problems, depth'⟩ = s.parse ⟨problems, depth⟩) ∧
    (∀ p, s.parse ⟨problems, depth⟩ = .ok p → (∃ d ∈ p.diagnostics s, d.code = "E106") →
      ∃ before last, p.diagnostics s = before ++ [last] ∧ last.code = "E106" ∧
        (∀ d ∈ before, d.code ≠ "E106") ∧
        (before <+: (s.survey ⟨problems, depth'⟩).diagnostics s ∧
          p.program.statements <+: (s.survey ⟨problems, depth'⟩).statements.toList) ∧
        ∀ p', s.parse ⟨problems, depth'⟩ = .ok p' →
          before <+: p'.diagnostics s ∧ p.program.statements <+: p'.program.statements) ∧
    ∀ (h : Heap) (f : FrameId) (rounds : Nat),
      (∀ o, Heap.Evaluated.result (h.evaluate f s ⟨problems, depth⟩ rounds).1 = .ok o →
        ∀ d ∈ o.diagnostics, d.code ≠ "E106" ∧ d.code ≠ "E406") →
      h.evaluate f s ⟨problems, depth'⟩ rounds = h.evaluate f s ⟨problems, depth⟩ rounds := by
  refine ⟨fun hnone => ?_, fun p hp hdeep => ?_, fun h f rounds hnone => ?_⟩
  · have he := survey_eq_of_not_deep hd hmax hnone
    exact ⟨he, by rw [parse_eq_survey, parse_eq_survey, he]⟩
  · obtain ⟨before, last, he, hlast, hbefore, hdiagnostics, hstatements⟩ :=
      survey_of_deep hd hmax hp hdeep
    refine ⟨before, last, he, hlast, hbefore, ⟨hdiagnostics, hstatements⟩, fun p' hp' => ?_⟩
    obtain ⟨hd', hs'⟩ := survey_of_parse hp'
    exact ⟨hd' ▸ hdiagnostics, hs' ▸ hstatements⟩
  · exact Heap.evaluate_deepens hd hmax hnone

/-- A declaration, a problem, and five hundred signs in front of a name. Each sign takes two
levels. -/
def signsText : List Char :=
  "let x = 1; ) ".toList ++ List.replicate 500 '-' ++ "x".toList

def signs : Source :=
  { text := String.ofList signsText }

theorem parse_signs (limits : Limits) :
    signs.parse limits = (do
      let depth ← depthBudget limits.depth
      parseTokens limits.problems depth (Cursor.tokensWithin 600 ⟨.start none, signsText⟩)) := by
  rw [Source.parse, signs, Source.tokens_ofList signsText (by decide +kernel : _ < 600)]

theorem limit_deepens_signs : ∃ p p' before last,
    signs.parse ⟨20, 1000⟩ = .ok p ∧ signs.parse ⟨20, 10000⟩ = .ok p' ∧
    p.diagnostics signs = before ++ [last] ∧ last.code = "E106" ∧
    before.map Diagnostic.code = ["E103"] ∧ before <+: p'.diagnostics signs ∧
    p.program.statements <+: p'.program.statements ∧
    p.program.statements.length = 1 ∧ p'.program.statements.length = 2 := by
  have hnear : (signs.parse ⟨20, 1000⟩).toOption.map (fun p =>
      ((p.diagnostics signs).map Diagnostic.code, p.program.statements.length)) =
        some (["E103", "E106"], 1) := by
    rw [parse_signs]
    decide +kernel
  have hfar : (signs.parse ⟨20, 10000⟩).toOption.map (·.program.statements.length) = some 2 := by
    rw [parse_signs]
    decide +kernel
  cases hp : signs.parse ⟨20, 1000⟩ with
  | error fault =>
    rw [hp] at hnear
    cases hnear
  | ok p =>
    cases hp' : signs.parse ⟨20, 10000⟩ with
    | error fault =>
      rw [hp'] at hfar
      cases hfar
    | ok p' =>
      rw [hp] at hnear
      rw [hp'] at hfar
      obtain ⟨hcodes, hlength⟩ := Prod.mk.inj (Option.some.inj hnear)
      have hdeep : ∃ d ∈ p.diagnostics signs, d.code = "E106" := by
        have hmem : "E106" ∈ (p.diagnostics signs).map Diagnostic.code := by simp [hcodes]
        simpa using hmem
      obtain ⟨before, last, he, hlast, -, -, hreturns⟩ :=
        (signs.limit_deepens 20 (by decide : (1000 : Int) ≤ 10000) (by decide)).2.1 p hp hdeep
      obtain ⟨hbefore, hstatements⟩ := hreturns p' hp'
      rw [he, List.map_append] at hcodes
      have hcut : before.map Diagnostic.code = ["E103"] :=
        List.append_inj_left' (hcodes : _ = ["E103"] ++ ["E106"]) rfl
      exact ⟨p, p', before, last, rfl, rfl, he, hlast, hcut, hbefore, hstatements, hlength,
        Option.some.inj hfar⟩

end Ember

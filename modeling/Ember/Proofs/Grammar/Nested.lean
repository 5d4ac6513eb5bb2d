import Ember.Proofs.Grammar.Limit
import Ember.Proofs.Parse.Nesting

/-!
# Where what a parse finds stands

All nodes that a parse finds stand in the source, one inside another and one behind another
(`Source.parse_nests`), also those of a tree that problems have left gaps in.

Every problem points into the source and quotes a line of it. It is the line that is pointed at,
unless a block is not closed (`Source.survey_quotes`): the end of the text is pointed at then, and
the line of an opening brace is quoted, whichever number the other line has (`quotes_other_line`).
-/

namespace Ember

open Ember.Parser
open Node (Fits Stacked Contains StandsAt)

variable {s : Source} {limits : Limits} {p : Parsed} {b e : Nat} {found : Array Node} {w : Window}

/-- What a survey has found lies from `b` to where the survey came to. -/
structure Survey.Stands (s : Source) (b : Nat) (v : Survey) : Prop where
  last : v.last.Of s
  statements : Stacked s b v.statements.toList v.last.reach

/-- A statement is found behind those found before. -/
theorem surveyStatements_stands (limit : Int) (depth n : Nat) (hw : w.Of s)
    (hf : Stacked s b found.toList w.current.offset) :
    (surveyStatements limit depth n found w).Stands s b := by
  induction n generalizing found w with
  | zero => exact ⟨hw, hf.widen (Source.offset_le_stop hw.current)⟩
  | succ n ih =>
    rw [surveyStatements]
    by_cases he : w.current.kind = .endOfText
    · rw [if_pos he]
      exact ⟨hw, hf.widen (Source.offset_le_stop hw.current)⟩
    rw [if_neg he]
    have hcomes := (parsePhrase_nests s depth).statement w.current.offset w hw (Nat.le_refl _)
      (Source.offset_le_stop hw.current)
    cases hs : parsePhrase depth .statement w with
    | error stop w₁ =>
      rw [hs] at hcomes
      have hreach := (leads_of_error hs).reach_le hw
      have hfound : Stacked s b found.toList w₁.reach :=
        hf.widen (Nat.le_trans (Source.offset_le_stop hw.current) hreach)
      cases stop with
      | tooDeep => exact ⟨hcomes.note (Problem.quotes_own _ (by simp)), hfound⟩
      | literalTooLong digits => exact ⟨hcomes, hfound⟩
    | ok statement w₁ =>
      rw [hs] at hcomes
      have hkeep := hf.keep hcomes.2
      rw [Survey.behind]
      split
      · exact ⟨hcomes.1, hkeep⟩
      · exact ih hcomes.1.advance (hkeep.widen hcomes.1.reach_le_advance)

namespace Source

theorem window_of (s : Source) : (Window.ofTokens s.tokens).Of s := by
  refine ⟨⟨[], ofTokens_tokens s⟩, ?_⟩
  rw [ofTokens_problems]
  simp

/-- **What a parse has found stands in the source**, however the parse ends. -/
theorem survey_stands (s : Source) (limits : Limits) :
    (s.survey limits).Stands s (Window.ofTokens s.tokens).current.offset := by
  have hnone : Stacked s (Window.ofTokens s.tokens).current.offset [] _ := .nil (Nat.le_refl _)
  unfold survey
  split
  · exact ⟨s.window_of, hnone.widen (offset_le_stop s.window_of.current)⟩
  · exact surveyStatements_stands _ _ _ s.window_of hnone

theorem nested_of_parse (h : s.parse limits = .ok p) : p.program.toNode.Nested s := by
  have hstands := s.survey_stands limits
  rw [parse_eq_survey, Survey.parsed] at h
  cases he : (s.survey limits).ending with
  | error fault =>
    rw [he] at h
    cases h
  | ok ending =>
    rw [he] at h
    cases h
    have hover : ∀ span, (Node.program (some span) (s.survey limits).statements.toList).Over span
      (s.survey limits).statements.toList := fun _ => ⟨rfl, rfl, fun _ => trivial⟩
    exact ((hover _).fits ⟨_, s.window_of.current, rfl⟩ hstands.last.current hstands.statements
      (Nat.le_refl _) (Nat.le_refl _)).nested

/-- A program that is parsed stands between the tokens of its source. -/
theorem parse_between (h : s.parse limits = .ok p) :
    p.program.toNode.Placed (Between s.tokens) :=
  (nested_of_parse h).placed

/-- **The nodes of a program stand in its source.** Each has a span from the start of a token to
the end of one. The nodes inside it stand inside that span, in order and apart, and names and
numbers are what stands there. -/
theorem parse_nests (h : s.parse limits = .ok p) {n : Node} (hn : p.program.toNode.Contains n)
    (hthere : n.isMissing = false) : ∃ span, n.StandsAt s span :=
  nested_of_parse h n hn hthere

/-- A call whose first argument is no expression. -/
def gapCall : Source := { text := "f(+, 12)" }

/-- The tree of the call has a gap, and its nodes stand in the source. -/
theorem parse_nests_gapCall : ∃ p, gapCall.parse {} = .ok p ∧ p.problems.size = 1 ∧
    p.program.toNode.print = "f(, 12)" ∧
    ∀ n, p.program.toNode.Contains n → n.isMissing = false → ∃ span, n.StandsAt gapCall span := by
  have hrun : (gapCall.parse {}).toOption.map (fun p =>
      (p.problems.size, p.program.toNode.print)) = some (1, "f(, 12)") := by decide +kernel
  obtain ⟨p, hp, hfound⟩ := ok_of_toOption hrun
  obtain ⟨hsize, hprint⟩ := Prod.mk.inj hfound
  exact ⟨p, hp, hsize, hprint, fun n hn hthere => parse_nests hp hn hthere⟩

/-! ## Quoted lines -/

/-- **Problems quote the line that they point at**, however the parse ends. Only where a block is
not closed, the end of the text is pointed at, and the line of an opening brace is quoted. -/
theorem survey_quotes (s : Source) (limits : Limits) :
    (∀ p ∈ (s.survey limits).last.problems,
      (p.cause ≠ .unexpectedEnd Kind.rightBrace.name →
        (p.diagnostic s).sourceLine = s.line? p.span.start.line) ∧
      (p.cause = .unexpectedEnd Kind.rightBrace.name →
        p.span = s.endToken.span ∧ ∃ t ∈ s.tokens, t.kind = .leftBrace ∧
          (p.diagnostic s).sourceLine = s.line? t.span.start.line)) ∧
    ∀ p, s.parse limits = .ok p → p.problems = (s.survey limits).last.problems := by
  refine ⟨fun p hp => ?_, fun p hp => (problems_of_parse hp).1⟩
  have hquotes := (s.survey_stands limits).last.quotes p hp
  unfold Problem.Quotes at hquotes
  refine ⟨fun hcause => ?_, fun hcause => ?_⟩
  · rw [if_neg hcause] at hquotes
    exact congrArg (fun number : Nat => s.line? number) hquotes
  · rw [if_pos hcause] at hquotes
    obtain ⟨hspan, t, ht, hk, hline⟩ := hquotes
    exact ⟨hspan, t, ht, hk, congrArg (fun number : Nat => s.line? number) hline⟩

/-- A block that is not closed on the line of its brace, or at all. -/
def openBlock : Source := { text := "if (x) \x7b\n  y" }

/-- **A problem may quote another line than the one it points at.** -/
theorem quotes_other_line : ¬ ∀ (s : Source) (limits : Limits) (p : Parsed),
    s.parse limits = .ok p → ∀ q ∈ p.problems,
      (q.diagnostic s).sourceLine = s.line? q.span.start.line := by
  intro hquoted
  have hrun : (openBlock.parse {}).toOption.map (fun p =>
      p.problems.map fun q => decide ((q.diagnostic openBlock).sourceLine =
        openBlock.line? q.span.start.line)) = some #[false] := by decide +kernel
  obtain ⟨p, hp, hall⟩ := ok_of_toOption hrun
  have hfalse : false ∈ p.problems.map fun q => decide ((q.diagnostic openBlock).sourceLine =
      openBlock.line? q.span.start.line) := by
    rw [hall]
    exact Array.mem_singleton.2 rfl
  obtain ⟨q, hq, hquote⟩ := Array.mem_map.1 hfalse
  exact of_decide_eq_false hquote (hquoted openBlock {} p hp q hq)

end Source

end Ember

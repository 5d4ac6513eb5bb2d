import Ember.Proofs.Grammar.Survey
import Ember.Proofs.Parse.Tandem

/-!
# Surveys side by side

Two surveys that begin at near windows of a tandem find the same statements and the same problems up
to places, and end in the same way, unless some stage on the way is excused
(`Tandem.surveys`).
-/

namespace Ember

open Ember.Parser Survey

/-- The parses ended in the same way. -/
inductive ParseEnd.Alike : ParseEnd → ParseEnd → Prop
  | complete : ParseEnd.Alike .complete .complete
  | problemLimit : ParseEnd.Alike .problemLimit .problemLimit
  | tooDeep (place place' : Location) : ParseEnd.Alike (.tooDeep place) (.tooDeep place')

/-- The parses found the same statements and the same problems up to places, and ended in the
same way. -/
structure Parsed.Alike (p p' : Parsed) : Prop where
  statements : List.Forall₂ (Node.Alike nowhere) p.program.statements p'.program.statements
  problems : p.problems.toList.map Problem.cause = p'.problems.toList.map Problem.cause
  ending : p.ending.Alike p'.ending

/-- What two parses of tokens come to. -/
inductive ParsesAlike : Except Fault Parsed → Except Fault Parsed → Prop
  | fault (reason : Fault) : ParsesAlike (.error reason) (.error reason)
  | ok {p p' : Parsed} : p.Alike p' → ParsesAlike (.ok p) (.ok p')

variable {w w' : Window}

namespace Window

theorem causes_note (cause : SyntaxCause) (t q : Token) :
    (w.note cause t q).causes = w.causes ++ [cause] := by
  simp only [causes, note, Array.toList_push, List.map_append, List.map_singleton]

theorem causes_advance : w.advance.causes = w.causes := by
  rw [causes, causes, advance_problems]

theorem size_of_causes (h : w.causes = w'.causes) : w.problems.size = w'.problems.size := by
  simpa [causes] using congrArg List.length h

end Window

theorem Parser.Trees.keep {ns ns' : Array Node} (hns : Trees ns ns') {n n' : Node}
    (hn : n.Alike nowhere n') : Trees (keep ns n) (keep ns' n') := by
  unfold Ember.keep
  rw [hn.isMissing]
  split
  · exact hns
  · exact hns.push hn

namespace Survey

/-- The surveys found the same statements and the same problems up to places, and ended in the same
way, or were refused for the same reason. -/
structure Alike (v v' : Survey) : Prop where
  statements : Trees v.statements v'.statements
  causes : v.last.causes = v'.last.causes
  ending : (∃ reason, v.ending = .error reason ∧ v'.ending = .error reason) ∨
    ∃ e e', v.ending = .ok e ∧ v'.ending = .ok e' ∧ e.Alike e'

/-- The survey came by this stage: what was found there is kept, and where the parse was given up
the survey ended. -/
inductive Comes (v : Survey) : Stage → Prop
  | goesOn {w : Window} : w.problems.toList <+: v.last.problems.toList → Comes v (none, w)
  | givenUp {stop : ParseStop} {found : Array Node} {w : Window} : v = givenUp found w stop →
      Comes v (some stop, w)

theorem comes_behind {rest : Array Node → Window → Survey}
    (hrest : ∀ found w, (rest found w).Keeps found w) (limit : Int) (found : Array Node)
    (r : EStateM.Result ParseStop Window Node) : (behind limit found rest r).Comes (stage r) := by
  cases r with
  | error stop w => exact .givenUp rfl
  | ok statement w => exact .goesOn (keeps_behind hrest limit found (fun _ => .ok statement w) w).2

theorem Comes.problems {v : Survey} {a : Stage} (h : v.Comes a) :
    a.2.problems.toList <+: v.last.problems.toList := by
  cases h with
  | goesOn hkept => exact hkept
  | givenUp hv => exact hv ▸ (keeps_givenUp _ _ _).problems

theorem Comes.tooDeep {v : Survey} {a : Stage} (h : v.Comes a) (ha : a.1 = some .tooDeep) :
    v.ending = .ok (.tooDeep a.2.current.span.start) := by
  cases h with
  | goesOn hkept => cases ha
  | givenUp hv =>
    obtain rfl := Option.some.inj ha
    rw [hv]
    rfl

theorem alike_givenUp {found found' : Array Node} (hf : Trees found found')
    (hw : w.causes = w'.causes) (stop : ParseStop) :
    (givenUp found w stop).Alike (givenUp found' w' stop) := by
  cases stop with
  | tooDeep =>
    refine ⟨hf, ?_, .inr ⟨_, _, rfl, rfl, .tooDeep _ _⟩⟩
    rw [givenUp, givenUp, Window.causes_note, Window.causes_note, hw]
  | literalTooLong digits => exact ⟨hf, hw, .inl ⟨_, rfl, rfl⟩⟩

/-- Alike surveys are those of alike parses. -/
theorem Alike.parsed {v v' : Survey} (h : v.Alike v') (first first' : Token) :
    ParsesAlike (v.parsed first) (v'.parsed first') := by
  unfold Survey.parsed
  rcases h.ending with ⟨reason, he, he'⟩ | ⟨e, e', he, he', halike⟩
  · rw [he, he']
    exact .fault reason
  · rw [he, he']
    exact .ok ⟨h.statements, h.causes, halike⟩

end Survey

namespace Tandem

variable {T : Tandem}

/-- The surveys are alike, unless they came by stages that are excused. -/
def Surveys (T : Tandem) (v v' : Survey) : Prop :=
  (∃ a a', T.excused a a' ∧ v.Comes a ∧ v'.Comes a') ∨ v.Alike v'

/-- **From near windows two surveys find the same**, unless they are excused on the way. -/
theorem surveys (hmeets : ∀ depth, T.Meets (parsePhrase depth) (parsePhrase depth))
    (limit : Int) (depth n : Nat) {found found' : Array Node} (hf : Trees found found')
    (hw : T.near w w') :
    T.Surveys (surveyStatements limit depth n found w)
      (surveyStatements limit depth n found' w') := by
  induction n generalizing found found' w w' with
  | zero => exact .inr ⟨hf, T.causes hw, .inr ⟨_, _, rfl, rfl, .complete⟩⟩
  | succ n ih =>
    rw [surveyStatements, surveyStatements, ← Token.kind_of_bare (T.current hw)]
    by_cases he : w.current.kind = .endOfText
    · rw [if_pos he, if_pos he]
      exact .inr ⟨hf, T.causes hw, .inr ⟨_, _, rfl, rfl, .complete⟩⟩
    rw [if_neg he, if_neg he]
    rcases agree hmeets depth _ _ .statement w w' hw with hexcused | hsame
    · have hkeeps := surveyStatements_keeps limit depth n
      exact .inl ⟨_, _, hexcused, comes_behind hkeeps limit found _,
        comes_behind hkeeps limit found' _⟩
    generalize parsePhrase depth .statement w = r at hsame ⊢
    generalize parsePhrase depth .statement w' = r' at hsame ⊢
    cases hsame with
    | error stop hcauses => exact .inr (alike_givenUp hf hcauses stop)
    | @ok n₁ n₁' w₁ w₁' h =>
      have hcauses := T.causes (T.near_of_ready h.windows)
      rw [behind, behind, ← Window.size_of_causes hcauses]
      by_cases hl : limit ≤ w₁.problems.size
      · rw [if_pos hl, if_pos hl]
        exact .inr ⟨hf.keep h.values, hcauses, .inr ⟨_, _, rfl, rfl, .problemLimit⟩⟩
      · rw [if_neg hl, if_neg hl]
        exact ih (hf.keep h.values) (T.advance h.windows)

end Tandem

end Ember

import Ember.Proofs.Grammar.Abreast

/-!
# Parses of texts that differ in places only

Two windows are alike when they show the same tokens up to their places and have found the
same problems up to theirs. No rule of the grammar looks at a place, so alike windows stay alike,
which makes them a tandem in which nothing is excused (`Tandem.twin`): tokens that differ in their
places only are parsed alike (`Source.parse_twins`).
-/

namespace Ember

open Ember.Parser

/-- The windows differ in places only. -/
structure Window.Alike (w w' : Window) : Prop where
  tokens : w.tokens.map Token.bare = w'.tokens.map Token.bare
  problems : w.problems.toList.map Problem.cause = w'.problems.toList.map Problem.cause

namespace Window.Alike

variable {w w' : Window}

theorem symm (hw : w.Alike w') : w'.Alike w :=
  ⟨hw.tokens.symm, hw.problems.symm⟩

theorem current (hw : w.Alike w') : w.current.bare = w'.current.bare :=
  (List.cons.inj hw.tokens).1

theorem ahead (hw : w.Alike w') : w.ahead.map Token.bare = w'.ahead.map Token.bare :=
  (List.cons.inj hw.tokens).2

theorem next (hw : w.Alike w') : w.next.bare = w'.next.bare := by
  have ha := hw.ahead
  unfold Window.next
  cases hl : w.ahead with
  | nil =>
    rw [hl, List.map_nil, eq_comm, List.map_eq_nil_iff] at ha
    rw [ha]
    exact hw.current
  | cons t ts =>
    rw [hl, List.map_cons] at ha
    obtain ⟨t', ts', hl', ht, -⟩ := List.map_eq_cons_iff.1 ha.symm
    rw [hl']
    exact ht.symm

theorem advance (hw : w.Alike w') : w.advance.Alike w'.advance := by
  have ha := hw.ahead
  refine ⟨?_, by rw [advance_problems, advance_problems, hw.problems]⟩
  unfold Window.advance
  cases hl : w.ahead with
  | nil =>
    rw [hl, List.map_nil, eq_comm, List.map_eq_nil_iff] at ha
    rw [ha]
    exact hw.tokens
  | cons t ts =>
    rw [hl, List.map_cons] at ha
    obtain ⟨t', ts', hl', ht, hts⟩ := List.map_eq_cons_iff.1 ha.symm
    rw [hl']
    simp only [Window.tokens, List.map_cons, ht, hts]

theorem note (hw : w.Alike w') (cause : SyntaxCause) (t q t' q' : Token) :
    (w.note cause t q).Alike (w'.note cause t' q') := by
  refine ⟨hw.tokens, ?_⟩
  simp only [Window.note, Array.toList_push, List.map_append, hw.problems, List.map_singleton]

/-- Windows that are alike end alike. -/
theorem ended (hw : w.Alike w') (h : w.Ended) : w'.Ended := by
  obtain ⟨last, ⟨front, hfront⟩, hlast⟩ := h
  have htokens := hw.tokens
  rw [← hfront, List.map_append, eq_comm] at htokens
  obtain ⟨us, vs, htokens', -, hvs⟩ := List.map_eq_append_iff.1 htokens
  obtain ⟨last', rest, rfl, hbare, hrest⟩ := List.map_eq_cons_iff.1 hvs
  obtain rfl := List.map_eq_nil_iff.1 hrest
  exact ⟨last', ⟨us, htokens'.symm⟩, (Token.kind_of_bare hbare).trans hlast⟩

end Window.Alike

/-- Alike windows are a tandem. -/
def Tandem.twin : Tandem where
  near w w' := w.Alike w' ∧ w.Ended
  ready w w' := w.Alike w' ∧ w.Ended
  excused _ _ := False
  near_of_ready := id
  ended hw := ⟨hw.2, hw.1.ended hw.2⟩
  causes hw := hw.1.problems
  current hw := hw.1.current
  next hw := hw.1.next
  advance hw := ⟨hw.1.advance, hw.2.advance⟩
  note cause t q t' q' hw := ⟨hw.1.note cause t q t' q', hw.2⟩
  settle hw _ := hw
  astray := .inl
  persists := False.elim

/-! ## Programs -/

variable {w w' : Window}

/-- Surveys that begin at alike windows are alike. -/
theorem surveyStatements_twins (limit : Int) (depth n : Nat) {found found' : Array Node}
    (hf : Trees found found') (hw : w.Alike w') (hended : w.Ended) :
    (surveyStatements limit depth n found w).Alike
      (surveyStatements limit depth n found' w') := by
  rcases Tandem.twin.surveys (fun _ _ _ => .inl) limit depth n hf ⟨hw, hended⟩ with
    ⟨_, _, hexcused, -, -⟩ | halike
  · exact hexcused.elim
  · exact halike

/-- What two loops over statements come to: the same fault, or the same statements and problems up
to places. -/
inductive StatementsAlike : Except Fault (Array Node × ParseEnd × Window) →
    Except Fault (Array Node × ParseEnd × Window) → Prop
  | fault (reason : Fault) : StatementsAlike (.error reason) (.error reason)
  | ok {ns ns' : Array Node} {e e' : ParseEnd} {w w' : Window} : Trees ns ns' → e.Alike e' →
      w.causes = w'.causes → StatementsAlike (.ok (ns, e, w)) (.ok (ns', e', w'))

theorem parseStatements_twins (limit : Int) (depth : Nat) {found found' : Array Node}
    (hf : Trees found found') (hw : w.Alike w') (hended : w.Ended) (n : Nat) :
    StatementsAlike (parseStatements limit depth found n w)
      (parseStatements limit depth found' n w') := by
  have halike := surveyStatements_twins limit depth n hf hw hended
  rw [parseStatements_eq_survey, parseStatements_eq_survey]
  rcases halike.ending with ⟨reason, he, he'⟩ | ⟨e, e', he, he', hends⟩
  · rw [he, he']
    exact .fault reason
  · rw [he, he']
    exact .ok halike.statements hends halike.causes

theorem Window.ofTokens_alike {ts ts' : List Token}
    (h : ts.map Token.bare = ts'.map Token.bare) :
    (Window.ofTokens ts).Alike (Window.ofTokens ts') := by
  cases ts with
  | nil =>
    rw [List.map_nil, eq_comm, List.map_eq_nil_iff] at h
    rw [h]
    exact ⟨rfl, rfl⟩
  | cons t ts =>
    obtain ⟨t', ts', rfl, ht, hts⟩ := List.map_eq_cons_iff.1 h.symm
    exact ⟨h, rfl⟩

/-- **Sources with the same tokens up to places are parsed alike.** -/
theorem Source.parse_twins {s s' : Source} (limits : Limits)
    (h : s.tokens.map Token.bare = s'.tokens.map Token.bare) :
    ParsesAlike (s.parse limits) (s'.parse limits) := by
  have hlength : s.tokens.length = s'.tokens.length := by simpa using congrArg List.length h
  rw [parse_eq_survey, parse_eq_survey, survey, survey]
  cases depthBudget limits.depth with
  | error reason => exact .fault reason
  | ok depth =>
    rw [← hlength]
    have halike := surveyStatements_twins limits.problems depth (s.tokens.length + 1) .nil
      (Window.ofTokens_alike h) s.ofTokens_ended
    exact halike.parsed _ _

end Ember

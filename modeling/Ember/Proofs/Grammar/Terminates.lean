import Ember.Proofs.Grammar.Limit
import Ember.Proofs.Parse.Levels
import Ember.Proofs.Parse.Nesting
import Ember.Proofs.Parse.Rounds

/-!
# Every parse ends

A parse of tokens takes no more rounds, in any of its loops, than there are tokens, and nests no
deeper than four levels for each of them. So what ends it is the end of the text, a limit that was
asked for, or a literal that is too long (`Source.parse_ends`), never a bound of its own.
-/

namespace Ember

open Ember.Parser Survey

variable {limit : Int} {depth n m : Nat} {found : Array Node} {v : Survey} {w w₁ : Window}

/-- A survey with rounds enough takes no more of them. -/
theorem surveyStatements_rounds (limit : Int) (depth : Nat) (found : Array Node) (hw : w.Ended)
    (hn : w.ahead.length < n) (hm : w.ahead.length < m) :
    surveyStatements limit depth n found w = surveyStatements limit depth m found w := by
  induction n generalizing found w m with
  | zero => exact absurd hn (Nat.not_lt_zero _)
  | succ n ih =>
    obtain ⟨m, rfl⟩ := Nat.exists_eq_add_of_le' (Nat.one_le_of_lt hm)
    rw [surveyStatements, surveyStatements]
    by_cases he : w.current.kind = .endOfText
    · rw [if_pos he, if_pos he]
    rw [if_neg he, if_neg he]
    cases hs : parsePhrase depth .statement w with
    | error stop w₁ => rfl
    | ok statement w₁ =>
      have htokens := (leads_of_ok hs).tokens
      have hlength := (advance_suffix_ahead htokens (hw.ahead_ne_nil he)).length_le
      rw [Window.tokens, List.length_cons] at hlength
      rw [behind, behind]
      split
      · rfl
      · exact ih _ (hw.of_suffix htokens).advance (by omega) (by omega)

/-- What ends a survey. -/
theorem Survey.LastRound.ends (h : v.LastRound limit depth w) :
    v.ending = .ok .problemLimit ∨ (∃ place, v.ending = .ok (.tooDeep place)) ∨
      (∃ digits, v.ending = .error (.literalTooLong digits)) ∨
      (v.ending = .ok .complete ∧ v.last = w ∧ w.current.kind = .endOfText) := by
  cases h with
  | complete he hending hlast => exact .inr (.inr (.inr ⟨hending, hlast, he⟩))
  | limited _ _ _ hending _ => exact .inl hending
  | @givenUp stop found w₁ _ _ hv =>
    rw [hv]
    cases stop with
    | tooDeep => exact .inr (.inl ⟨_, rfl⟩)
    | literalTooLong digits => exact .inr (.inr (.inl ⟨digits, rfl⟩))

/-- With levels enough it is not the nesting. -/
theorem Survey.LastRound.not_tooDeep (h : v.LastRound limit depth w) (hw : w.Ended)
    (hdepth : 4 * w.tokens.length + 2 ≤ depth) (place : Location) :
    v.ending ≠ .ok (.tooDeep place) := by
  cases h with
  | complete _ hending _ =>
    rw [hending]
    nofun
  | limited _ _ _ hending _ =>
    rw [hending]
    nofun
  | @givenUp stop found w₁ _ hs hv =>
    rw [hv]
    cases stop with
    | tooDeep =>
      have henough := parsePhrase_enough depth .statement w hw hdepth
      rw [stop?, hs] at henough
      exact absurd rfl henough
    | literalTooLong digits => nofun

theorem parseTokens_eq_survey (limit : Int) (depth : Nat) (ts : List Token) :
    parseTokens limit depth ts =
      (surveyStatements limit depth (ts.length + 1) #[] (Window.ofTokens ts)).parsed
        (Window.ofTokens ts).current := by
  simp only [parseTokens, bind, Except.bind]
  rw [parseStatements_eq_survey]
  unfold Survey.parsed
  cases (surveyStatements limit depth (ts.length + 1) #[] (Window.ofTokens ts)).ending with
  | error fault => rfl
  | ok ending => rfl

namespace Source

variable {s : Source}

theorem ended_of_suffix (hw : w.tokens <:+ s.tokens) : w.Ended :=
  s.ofTokens_ended.of_suffix (s.ofTokens_tokens ▸ hw)

/-- Where the end of the text is the current token, no other token is left. -/
theorem tokens_at_end (hw : w.tokens <:+ s.tokens) (hk : w.current.kind = .endOfText) :
    w.tokens = [s.endToken] := by
  obtain ⟨last, he, -, hprogram⟩ := s.tokens_eq
  obtain ⟨front, hfront⟩ := hw
  have hlast : s.programTokens ++ [last] = front ++ w.current :: w.ahead :=
    he.symm.trans hfront.symm
  obtain rfl := eq_of_append_eq hlast hk hprogram
  obtain ⟨hcurrent, hahead⟩ := List.cons.inj (List.append_cancel_left hlast)
  have hmem : w.current ∈ s.tokens := by
    rw [he, hcurrent]
    exact List.mem_append_right _ (List.mem_singleton_self _)
  rw [Window.tokens, ← hahead, eq_endToken hmem hk]

/-- **Every parse of a source ends by itself.** What ends it is the limit on the problems, the limit
on the nesting, a literal that is too long, or the end of the text, with no other token left. More
rounds than there are tokens change nothing; at every window of the source no loop of a rule takes
more rounds than there are tokens, and no phrase takes more than four levels for each of them, and
two. -/
theorem parse_ends (s : Source) (limit : Int) (depth : Nat) :
    let v := surveyStatements limit depth (s.tokens.length + 1) #[] (Window.ofTokens s.tokens)
    parseTokens limit depth s.tokens = v.parsed (Window.ofTokens s.tokens).current ∧
    (v.ending = .ok .problemLimit ∨ (∃ place, v.ending = .ok (.tooDeep place)) ∨
      (∃ digits, v.ending = .error (.literalTooLong digits)) ∨
      (v.ending = .ok .complete ∧ v.last.tokens = [s.endToken])) ∧
    (4 * s.tokens.length + 2 ≤ depth → ∀ place, v.ending ≠ .ok (.tooDeep place)) ∧
    (∀ n, s.tokens.length ≤ n →
      surveyStatements limit depth n #[] (Window.ofTokens s.tokens) = v) ∧
    ∀ (w : Window) (levels : Nat), w.tokens <:+ s.tokens →
      LoopsEnd (parsePhrase levels) w ∧
      ∀ phrase, 4 * w.tokens.length + 2 ≤ levels →
        (parsePhrase levels phrase).stop? w ≠ some .tooDeep := by
  have hlength := congrArg List.length s.ofTokens_tokens
  rw [Window.tokens, List.length_cons] at hlength
  obtain ⟨u, hu, -, hlast⟩ :=
    surveyStatements_lastRound limit depth #[] s.ofTokens_ended s.ofTokens_ahead_lt
  rw [ofTokens_tokens] at hu
  refine ⟨parseTokens_eq_survey limit depth s.tokens, ?_, fun hdepth => ?_, fun n hn => ?_, ?_⟩
  · rcases hlast.ends with h | h | h | ⟨hending, he, hk⟩
    · exact .inl h
    · exact .inr (.inl h)
    · exact .inr (.inr (.inl h))
    · exact .inr (.inr (.inr ⟨hending, he ▸ tokens_at_end hu hk⟩))
  · have hle := hu.length_le
    exact hlast.not_tooDeep (ended_of_suffix hu) (by omega)
  · exact surveyStatements_rounds limit depth #[] s.ofTokens_ended (by omega) s.ofTokens_ahead_lt
  · intro w levels hw
    have hended := ended_of_suffix hw
    refine ⟨loopsEnd hended, fun phrase hlevels => ?_⟩
    exact parsePhrase_enough levels phrase w hended (Nat.le_trans (phrase.levels_le _) hlevels)

/-- A call and an expression in parentheses, both of which are left open. -/
def openCall : Source := { text := "f(1, (2" }

/-- The survey of the open call comes to the end of the text, with thirty levels. -/
theorem parse_ends_openCall :
    (surveyStatements 20 30 8 #[] (Window.ofTokens openCall.tokens)).last.tokens =
        [openCall.endToken] ∧
      (∀ place, (surveyStatements 20 30 8 #[] (Window.ofTokens openCall.tokens)).ending ≠
        .ok (.tooDeep place)) ∧
      surveyStatements 20 30 9 #[] (Window.ofTokens openCall.tokens) =
        surveyStatements 20 30 8 #[] (Window.ofTokens openCall.tokens) ∧
      LoopsEnd (parsePhrase 3) (Window.ofTokens openCall.tokens) ∧
      (parsePhrase 30 .statement).stop? (Window.ofTokens openCall.tokens) ≠ some .tooDeep := by
  have hlength : openCall.tokens.length = 7 := by decide +kernel
  have hcomplete : (surveyStatements 20 30 8 #[]
      (Window.ofTokens openCall.tokens)).ending.toOption = some .complete := by decide +kernel
  have htokens := openCall.ofTokens_tokens
  have hsuffix : (Window.ofTokens openCall.tokens).tokens <:+ openCall.tokens :=
    htokens ▸ List.suffix_refl _
  obtain ⟨-, hends, hdeep, hrounds, hwindows⟩ := parse_ends openCall 20 30
  rw [hlength] at hends hdeep hrounds
  refine ⟨?_, hdeep (by decide), hrounds 9 (by decide), (hwindows _ 3 hsuffix).1,
    (hwindows _ 30 hsuffix).2 .statement (Nat.le_of_eq (by rw [htokens, hlength]))⟩
  rcases hends with h | ⟨place, h⟩ | ⟨digits, h⟩ | ⟨-, hlast⟩
  · rw [h] at hcomplete
    cases hcomplete
  · rw [h] at hcomplete
    cases hcomplete
  · rw [h] at hcomplete
    cases hcomplete
  · exact hlast

end Source

end Ember

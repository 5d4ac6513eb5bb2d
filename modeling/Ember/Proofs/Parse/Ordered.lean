import Ember.Proofs.Grammar.Survey
import Ember.Proofs.Token.Places

/-!
# Problems come in the order of the text

A rule starts at a token that no problem so far stands behind, and it ends in front of such a token:
the problem noted last may be that of the token ahead. A rule that starts, then, is always one that
starts behind a move, and so never looks again at a token in front of one that a problem was noted
for. So the problems of a parse stand in order, at tokens of the source (`Source.survey_ordered`).
-/

namespace Ember

/-- The problems stand at tokens of the source, in order, and up to the token `t`. -/
structure Window.Orderly (s : Source) (w : Window) (t : Token) : Prop where
  tokens : w.tokens <:+ s.tokens
  found : ∀ p ∈ w.problems, ∃ u ∈ s.tokens, p.span = u.span ∧ u.offset ≤ t.offset
  ordered : w.problems.toList.Pairwise (·.span.start.offset ≤ ·.span.start.offset)

namespace Window

variable {s : Source} {w : Window} {t u : Token}

theorem Orderly.mono (h : w.Orderly s t) (hle : t.offset ≤ u.offset) : w.Orderly s u where
  tokens := h.tokens
  found p hp :=
    let ⟨v, hv, hspan, hvt⟩ := h.found p hp
    ⟨v, hv, hspan, Nat.le_trans hvt hle⟩
  ordered := h.ordered

theorem current_le_next (hw : w.tokens <:+ s.tokens) : w.current.offset ≤ w.next.offset := by
  obtain ⟨t, ahead, problems⟩ := w
  cases ahead with
  | nil => exact Nat.le_refl _
  | cons u ts =>
    have hoffsets := s.tokens_offsets.sublist hw.sublist
    exact Nat.le_of_lt (List.rel_of_pairwise_cons hoffsets List.mem_cons_self)

theorem Orderly.next (h : w.Orderly s w.current) : w.Orderly s w.next :=
  h.mono (current_le_next h.tokens)

theorem Orderly.advance (h : w.Orderly s w.next) : w.advance.Orderly s w.advance.current := by
  refine ⟨w.advance_tokens_suffix.trans h.tokens, ?_, ?_⟩
  · rw [advance_problems, advance_current]
    exact h.found
  · rw [advance_problems]
    exact h.ordered

/-- One problem more, at the token up to which there are others. -/
theorem Orderly.note (h : w.Orderly s t) (ht : t ∈ s.tokens) (cause : SyntaxCause)
    (quoted : Token) : (w.note cause t quoted).Orderly s t := by
  refine ⟨h.tokens, fun p hp => ?_, ?_⟩
  · rcases Array.mem_push.1 hp with hp | rfl
    · exact h.found p hp
    · exact ⟨t, ht, rfl, Nat.le_refl _⟩
  · rw [Window.note, Array.toList_push, List.pairwise_append]
    refine ⟨h.ordered, List.pairwise_singleton .., fun p hp q hq => ?_⟩
    obtain ⟨u, -, hspan, hle⟩ := h.found p (Array.mem_toList_iff.1 hp)
    rw [List.mem_singleton.1 hq, hspan]
    exact hle

theorem Orderly.note_current (h : w.Orderly s w.current) (cause : SyntaxCause) (quoted : Token) :
    (w.note cause w.current quoted).Orderly s w.current :=
  h.note (h.tokens.subset List.mem_cons_self) cause quoted

theorem Orderly.note_next (h : w.Orderly s w.next) (cause : SyntaxCause) (quoted : Token) :
    (w.note cause w.next quoted).Orderly s w.next := by
  refine h.note ?_ cause quoted
  rw [← advance_current]
  exact (w.advance_tokens_suffix.trans h.tokens).subset List.mem_cons_self

end Window

namespace Parser

variable {α : Type} {s : Source} {w : Window} {point : Point}

/-! ## Rules -/

/-- The token up to which problems may have been noted: the current one where nothing was parsed
yet, and otherwise the next one. -/
def Point.front (w : Window) : Point → Token
  | opening | start | moved => w.current
  | begun | behind => w.next

/-- Where a step ends, there are problems up to the next token only. Where the parse is given up, it
is up to the current one. -/
def Run.EndsOrderly (s : Source) : Run α → Prop
  | .ok _ w => w.Orderly s w.next
  | .error _ w => w.Orderly s w.current

theorem up_to_next (h : w.Orderly s (point.front w)) : w.Orderly s w.next := by
  cases point with
  | opening | start | moved => exact Window.Orderly.next h
  | begun | behind => exact h

/-- Behind a problem at the current token or at the next one, there are problems up to the next
token. -/
theorem front_after (h : w.Orderly s w.next) : w.Orderly s (point.after.front w) := by
  cases point <;> exact h

/-- The judgement that a run ends orderly, if it starts so. -/
def Walk.ordered (s : Source) : Walk where
  Holds point w _ r _ := w.Orderly s (point.front w) → r.EndsOrderly s
  Stands _ := True
  stands _ := trivial
  weaken hbelow h hw := by
    cases hbelow with
    | begun | behind => exact h (Window.Orderly.next hw)
    | start | opening => exact h hw
  pure _ _ _ _ hw := up_to_next hw
  bind {_ _ _ _ r _ _ _} h hf hw := by
    have hends := h hw
    cases r with
    | ok a w' => exact hf a w' (front_after hends)
    | error stop w' => exact hends
  advance _ h hw := h (up_to_next hw).advance
  note_current {point _ _ _ _ _ _} hfresh _ h hw := by
    cases point with
    | opening | start | moved => exact h (hw.note_current _ _).next
    | begun | behind => exact hfresh.elim
  note_next _ h hw := h (front_after ((up_to_next hw).note_next _ _))
  refuse _ _ hw := hw

/-- **Every rule notes its problems in order**, however deep it nests. -/
theorem parsePhrase_ordered (depth : Nat) (phrase : Phrase) (hw : w.Orderly s w.current) :
    Run.EndsOrderly s (parsePhrase depth phrase w) := by
  have hshort : ∀ depth phrase w, parsePhrase depth phrase w = .error .tooDeep w →
      (Walk.ordered s).At .opening w (parsePhrase depth phrase) (parsePhrase depth phrase) := by
    intro depth phrase w hdeep hw
    rw [hdeep]
    exact hw
  exact Walk.phrase 0 (fun _ => trivial) hshort depth phrase w hw

end Parser

open Ember.Parser

variable {s : Source} {w : Window}

/-! ## Sources -/

theorem surveyStatements_orderly (limit : Int) (depth n : Nat) (found : Array Node)
    (hw : w.Orderly s w.current) :
    (surveyStatements limit depth n found w).last.Orderly s
      (surveyStatements limit depth n found w).last.next := by
  induction n generalizing found w with
  | zero => exact hw.next
  | succ n ih =>
    rw [surveyStatements]
    by_cases he : w.current.kind = .endOfText
    · rw [if_pos he]
      exact hw.next
    rw [if_neg he]
    have hends := parsePhrase_ordered depth .statement hw
    cases hs : parsePhrase depth .statement w with
    | error stop w₁ =>
      rw [hs] at hends
      cases stop with
      | tooDeep => exact (hends.note_current _ _).next
      | literalTooLong digits => exact hends.next
    | ok statement w₁ =>
      rw [hs] at hends
      rw [Survey.behind]
      split
      · exact hends
      · exact ih _ hends.advance

namespace Source

/-- A survey of a source begins without problems. -/
theorem ofTokens_orderly (s : Source) :
    (Window.ofTokens s.tokens).Orderly s (Window.ofTokens s.tokens).current := by
  refine ⟨ofTokens_tokens s ▸ List.suffix_refl _, ?_, ?_⟩
  · rw [ofTokens_problems]
    simp
  · rw [ofTokens_problems]
    exact .nil

theorem survey_orderly (s : Source) (limits : Limits) :
    (s.survey limits).last.Orderly s (s.survey limits).last.next := by
  unfold survey
  split
  · exact s.ofTokens_orderly.next
  · exact surveyStatements_orderly _ _ _ _ s.ofTokens_orderly

/-- **Problems come in the order of the text, and each of them stands at a token of the source**,
however the parse ends. -/
theorem survey_ordered (s : Source) (limits : Limits) :
    ((s.survey limits).diagnostics s).Pairwise (fun d e =>
      ∀ a ∈ d.span, ∀ b ∈ e.span, a.start.offset ≤ b.start.offset) ∧
    (∀ d ∈ (s.survey limits).diagnostics s, ∃ t ∈ s.tokens, d.span = some t.span) ∧
    ∀ p, s.parse limits = .ok p → p.diagnostics s = (s.survey limits).diagnostics s := by
  have horderly := s.survey_orderly limits
  refine ⟨?_, fun d hd => ?_, fun p hp => (survey_of_parse hp).1.symm⟩
  · rw [Survey.diagnostics, List.pairwise_map]
    refine horderly.ordered.imp fun {p q} hle a ha b hb => ?_
    obtain rfl := Option.some.inj ha
    obtain rfl := Option.some.inj hb
    exact hle
  · obtain ⟨p, hp, rfl⟩ := List.mem_map.1 hd
    obtain ⟨t, ht, hspan, -⟩ := horderly.found p (Array.mem_toList_iff.1 hp)
    exact ⟨t, ht, congrArg some hspan⟩

end Source

end Ember

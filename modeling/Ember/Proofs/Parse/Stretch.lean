import Ember.Proofs.Parse.Twins

/-!
# Texts that differ in one stretch

Two texts may be the same, up to places, but for one stretch that begins with a conditional in both.
Parses of such texts run in tandem in front of the stretch and behind it (`Tandem.stretch`). What
remains to be shown is that the conditionals are the same; the parses are excused where they run out
of levels inside the stretch, or go on inside it because it stands where a loop wants a clause.
-/

namespace Ember

open Ember.Parser

/-- The tokens `ts` and `us` stand for each other in front of `post` and `post'`, which are the same
up to places. -/
structure Stretch (ts us post post' : List Token) : Prop where
  /-- Both begin with the word of a conditional and the token behind it. -/
  starts : ∃ i o rest i' o' rest', ts = i :: o :: rest ∧ us = i' :: o' :: rest' ∧
    i.kind = .ifWord ∧ i.bare = i'.bare ∧ o.bare = o'.bare
  /-- Both end with the same token. -/
  ends : ∀ q c q' c', ts = q ++ [c] → us = q' ++ [c'] → c.bare = c'.bare
  behind : post.map Token.bare = post'.map Token.bare
  ended : ∃ last, [last] <:+ post ∧ last.kind = .endOfText

/-- The stretches are still ahead, behind tokens that are the same up to places. -/
structure Window.Before (ts us post post' front : List Token) (w w' : Window) : Prop where
  tokens : w.tokens = front ++ (ts ++ post)
  tokens' : ∃ front', w'.tokens = front' ++ (us ++ post') ∧
    front.map Token.bare = front'.map Token.bare
  causes : w.causes = w'.causes

/-- The problem is that a clause of a loop is wanted where the token stands. -/
def Problem.WantsClause (p : Problem) (t : Token) : Prop :=
  p.span = t.span ∧ ∃ kind name, p.cause = .invalidClause kind name

/-- Parses of two stretches need not end alike where a clause of a loop was wanted at the first
token, or where the levels have run out inside. -/
def Excused (ts us : List Token) (a a' : Stage) : Prop :=
  (∃ t ∈ ts.head?, ∃ p ∈ a.2.problems, p.WantsClause t) ∨
    (a.1 = some .tooDeep ∧ a.2.current ∈ ts) ∨ (a'.1 = some .tooDeep ∧ a'.2.current ∈ us)

theorem Excused.persists {ts us : List Token} {a a' b b' : Stage} (h : Excused ts us a a')
    (hb : a.Later b) (hb' : a'.Later b') : Excused ts us b b' := by
  rcases h with ⟨t, ht, p, hp, hwants⟩ | ⟨hstop, hmem⟩ | ⟨hstop, hmem⟩
  · refine .inl ⟨t, ht, p, ?_, hwants⟩
    cases hb with
    | goesOn hleads => exact Array.mem_toList_iff.1 (hleads.problems.subset hp.val)
    | ended stop w => exact hp
  · cases hb with
    | goesOn hleads => cases hstop
    | ended stop w => exact .inr (.inl ⟨hstop, hmem⟩)
  · cases hb' with
    | goesOn hleads => cases hstop
    | ended stop w => exact .inr (.inr ⟨hstop, hmem⟩)

namespace Stretch

variable {ts us post post' front front' : List Token} {w w' : Window}
  (h : Stretch ts us post post')

include h

theorem ended' : ∃ last, [last] <:+ post' ∧ last.kind = .endOfText := by
  obtain ⟨last, ⟨xs, hxs⟩, hlast⟩ := h.ended
  have hbehind := h.behind
  rw [← hxs, List.map_append, eq_comm] at hbehind
  obtain ⟨ys, zs, hys, -, hzs⟩ := List.map_eq_append_iff.1 hbehind
  obtain ⟨last', rest, rfl, hbare, hrest⟩ := List.map_eq_cons_iff.1 hzs
  obtain rfl := List.map_eq_nil_iff.1 hrest
  exact ⟨last', ⟨ys, hys.symm⟩, (Token.kind_of_bare hbare).trans hlast⟩

/-- In front of the stretches, or at their first tokens, the next two tokens are the same. -/
theorem two (hfront : front.map Token.bare = front'.map Token.bare) :
    ∃ x y xs x' y' xs', front ++ (ts ++ post) = x :: y :: xs ∧
      front' ++ (us ++ post') = x' :: y' :: xs' ∧ x.bare = x'.bare ∧ y.bare = y'.bare := by
  obtain ⟨i, o, rest, i', o', rest', rfl, rfl, -, hi, ho⟩ := h.starts
  cases front with
  | nil =>
    obtain rfl := List.map_eq_nil_iff.1 hfront.symm
    exact ⟨i, o, _, i', o', _, rfl, rfl, hi, ho⟩
  | cons t front =>
    obtain ⟨t', front', rfl, ht, hfront⟩ := List.map_eq_cons_iff.1 hfront.symm
    cases front with
    | nil =>
      obtain rfl := List.map_eq_nil_iff.1 hfront
      exact ⟨t, i, _, t', i', _, rfl, rfl, ht.symm, hi⟩
    | cons u front =>
      obtain ⟨u', front', rfl, hu, -⟩ := List.map_eq_cons_iff.1 hfront
      exact ⟨t, u, _, t', u', _, rfl, rfl, ht.symm, hu.symm⟩

theorem window (hw : w.Before ts us post post' front w') :
    w.current.bare = w'.current.bare ∧ w.next.bare = w'.next.bare := by
  obtain ⟨front', htokens', hfront⟩ := hw.tokens'
  obtain ⟨x, y, xs, x', y', xs', he, he', hx, hy⟩ := h.two hfront
  have htokens := hw.tokens.trans he
  rw [he'] at htokens'
  rw [Window.current_eq htokens, Window.current_eq htokens',
    Window.next_eq (Window.ahead_eq htokens), Window.next_eq (Window.ahead_eq htokens')]
  exact ⟨hx, hy⟩

/-- The stretches begin with a conditional. -/
theorem head (hw : w.Before ts us post post' [] w') :
    w.current ∈ ts.head? ∧ w.current.kind = .ifWord := by
  obtain ⟨i, o, rest, -, -, -, rfl, -, hi, -⟩ := h.starts
  have htokens := Window.current_eq hw.tokens
  rw [htokens]
  exact ⟨rfl, hi⟩

theorem window_ended (hw : w.Before ts us post post' front w') : w.Ended ∧ w'.Ended := by
  obtain ⟨last, hlast, hk⟩ := h.ended
  obtain ⟨last', hlast', hk'⟩ := h.ended'
  obtain ⟨front', htokens', -⟩ := hw.tokens'
  refine ⟨⟨last, hlast.trans ?_, hk⟩, last', hlast'.trans ?_, hk'⟩
  · rw [hw.tokens]
    exact (List.suffix_append _ _).trans (List.suffix_append _ _)
  · rw [htokens']
    exact (List.suffix_append _ _).trans (List.suffix_append _ _)

/-- In front of the stretches both windows may move on by a token. -/
theorem window_advance {t : Token} (hw : w.Before ts us post post' (t :: front) w') :
    w.advance.Before ts us post post' front w'.advance := by
  obtain ⟨_, htokens', hfront⟩ := hw.tokens'
  obtain ⟨t', front', rfl, -, hfront⟩ := List.map_eq_cons_iff.1 hfront.symm
  obtain ⟨x, y, xs, x', y', xs', he, he', -⟩ := h.two hfront.symm
  have hne : front ++ (ts ++ post) ≠ [] := he ▸ List.cons_ne_nil x _
  have hne' : front' ++ (us ++ post') ≠ [] := he' ▸ List.cons_ne_nil x' _
  refine ⟨Window.advance_tokens_eq (Window.ahead_eq hw.tokens) hne, ⟨front', ?_, hfront.symm⟩, ?_⟩
  · exact Window.advance_tokens_eq (Window.ahead_eq htokens') hne'
  · rw [Window.causes_advance, Window.causes_advance, hw.causes]

end Stretch

/-- Texts that differ in one stretch are parsed in tandem in front of it and behind it. -/
def Tandem.stretch {ts us post post' : List Token} (h : Stretch ts us post post') : Tandem where
  near w w' := Tandem.twin.near w w' ∨ ∃ front, w.Before ts us post post' front w'
  ready w w' := Tandem.twin.ready w w' ∨ ∃ t front, w.Before ts us post post' (t :: front) w'
  excused := Excused ts us
  near_of_ready hw := hw.imp id fun ⟨t, front, hw⟩ => ⟨t :: front, hw⟩
  ended := by
    rintro w w' (hw | ⟨front, hw⟩)
    · exact Tandem.twin.ended hw
    · exact h.window_ended hw
  causes := by
    rintro w w' (hw | ⟨front, hw⟩)
    · exact Tandem.twin.causes hw
    · exact hw.causes
  current := by
    rintro w w' (hw | ⟨front, hw⟩)
    · exact Tandem.twin.current hw
    · exact (h.window hw).1
  next := by
    rintro w w' (hw | ⟨front, hw⟩)
    · exact Tandem.twin.next hw
    · exact (h.window hw).2
  advance := by
    rintro w w' (hw | ⟨t, front, hw⟩)
    · exact .inl (Tandem.twin.advance hw)
    · exact .inr ⟨front, h.window_advance hw⟩
  note := by
    rintro w w' cause t q t' q' (hw | ⟨u, front, hw⟩)
    · exact .inl (Tandem.twin.note cause t q t' q' hw)
    · refine .inr ⟨u, front, hw.tokens, hw.tokens', ?_⟩
      rw [Window.causes_note, Window.causes_note, hw.causes]
  settle := by
    rintro w w' (hw | ⟨_ | ⟨t, front⟩, hw⟩) hk
    · exact .inl hw
    · exact absurd (h.head hw).2 hk
    · exact .inr ⟨t, front, hw⟩
  astray := by
    rintro w w' (hw | ⟨_ | ⟨t, front⟩, hw⟩)
    · exact .inl (.inl hw)
    · refine .inr fun kind name => .inl ⟨w.current, (h.head hw).1, ?_⟩
      exact ⟨_, Array.mem_push_self, rfl, kind, name, rfl⟩
    · exact .inl (.inr ⟨t, front, hw⟩)
  persists := Excused.persists

end Ember

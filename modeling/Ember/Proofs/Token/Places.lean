import Ember.Proofs.Token.Stream

/-!
# Where the tokens of a source stand

Every token starts behind the one before it, so a token of a source is known by its place
(`Source.tokens_place`).
-/

namespace Ember

theorem Location.past_offset (l : Location) (c : Char) : (l.past c).offset = l.offset + 1 := by
  unfold past
  split <;> rfl

theorem Location.pastAll_offset (l : Location) (cs : List Char) :
    (l.pastAll cs).offset = l.offset + cs.length := by
  induction cs generalizing l with
  | nil => rfl
  | cons c cs ih => calc
      ((l.past c).pastAll cs).offset = (l.past c).offset + cs.length := ih _
      _ = l.offset + (c :: cs).length := by
        rw [past_offset, List.length_cons]
        omega

/-- No lexeme is empty. -/
theorem lexeme_text_ne_nil (c : Char) (cs : List Char) : (lexeme c cs).text ≠ [] := by
  obtain ⟨ds, he⟩ := lexeme_text_head c cs
  rw [he]
  exact List.cons_ne_nil _ _

/-- The offset that a token starts at. -/
def Token.offset (t : Token) : Nat :=
  t.span.start.offset

namespace Cursor

theorem le_next_offset (c : Cursor) : c.place.offset ≤ c.next.1.offset := by
  have hskip : c.place.offset ≤ c.skipBlanks.place.offset := by
    rw [skipBlanks, Location.pastAll_offset]
    exact Nat.le_add_right _ _
  unfold next
  dsimp only
  split <;> exact hskip

/-- Behind a token that is not the end, the text goes on further right. -/
theorem next_offset_lt {c : Cursor} (h : c.skipBlanks.rest ≠ []) :
    c.next.1.offset < c.next.2.place.offset := by
  unfold next
  dsimp only
  split
  · next he => exact absurd he h
  · next x xs _ =>
    have hpos := List.length_pos_iff.2 (lexeme_text_ne_nil x xs)
    rw [Location.pastAll_offset]
    exact Nat.lt_add_of_pos_right hpos

theorem collect_offsets (found : Array Token) (c : Cursor) :
    ∃ ts, (c.collect found).toList = found.toList ++ ts ∧ (∀ t ∈ ts, c.place.offset ≤ t.offset) ∧
      ts.Pairwise (·.offset < ·.offset) := by
  fun_induction collect found c with
  | case1 found c step =>
    exact ⟨[step.1], by simp, by simpa using c.le_next_offset, List.pairwise_singleton _ _⟩
  | case2 found c step h ih =>
    obtain ⟨ts, he, hle, hts⟩ := ih
    have hlt : step.1.offset < step.2.place.offset := next_offset_lt h
    have hfirst : c.place.offset ≤ step.1.offset := c.le_next_offset
    refine ⟨step.1 :: ts, by simp [he], ?_, List.pairwise_cons.2 ⟨?_, hts⟩⟩
    · intro t ht
      rcases List.mem_cons.1 ht with rfl | ht
      · exact hfirst
      · have := hle t ht
        omega
    · intro t ht
      have := hle t ht
      omega

end Cursor

variable {s : Source} {k k' : Nat} {t t' : Token}

theorem Source.tokens_offsets (s : Source) : s.tokens.Pairwise (·.offset < ·.offset) := by
  obtain ⟨ts, he, -, hts⟩ := (Cursor.ofSource s).collect_offsets #[]
  have htokens : s.tokens = ts := he
  rwa [htokens]

/-- **A token of a source is known by its place.** -/
theorem Source.tokens_place (h : s.tokens[k]? = some t) (h' : s.tokens[k']? = some t')
    (hspan : t'.span = t.span) : k' = k := by
  obtain ⟨hk, rfl⟩ := List.getElem?_eq_some_iff.1 h
  obtain ⟨hk', rfl⟩ := List.getElem?_eq_some_iff.1 h'
  have hoffsets := List.pairwise_iff_getElem.1 s.tokens_offsets
  have hsame : s.tokens[k'].offset = s.tokens[k].offset := congrArg (·.start.offset) hspan
  rcases Nat.lt_trichotomy k' k with hlt | heq | hlt
  · have := hoffsets k' k hk' hk hlt
    omega
  · exact heq
  · have := hoffsets k k' hk hk' hlt
    omega

end Ember

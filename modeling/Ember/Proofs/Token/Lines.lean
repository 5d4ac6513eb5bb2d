import Ember.Proofs.Token.Exact
import Mathlib.Data.Nat.Find

/-!
# Tokens in quoted lines

The place of a token counts line feeds only, while a line that is quoted ends at every line break.
So a token stands in the line of its number, at its column, as long as every break before it is a
line feed, alone or behind a carriage return. Where another break comes first, the next token
stands in no such place: the lines are counted differently from there on (`Source.shows_iff`).
-/

namespace Ember

open Text

/-! ## Lines -/

/-- A line break that is no line feed stands here. A carriage return in front of a line feed is part
of that break. -/
def StrayBreak (cs : List Char) (i : Nat) : Prop :=
  ∃ c ∈ cs[i]?, isLineBreak c = true ∧ c ≠ '\n' ∧ (c = '\r' → cs[i + 1]? ≠ some '\n')

variable {begun cs pre ds rest : List Char} {c : Char} {i : Nat}

theorem strayBreak_cons : StrayBreak (c :: cs) (i + 1) ↔ StrayBreak cs i := by
  simp [StrayBreak]

/-- A stray break is one that is no newline, and no first half of one. -/
theorem strayBreak_zero :
    StrayBreak (c :: cs) 0 ↔
      isLineBreak c = true ∧ c ≠ '\n' ∧ (c = '\r' → cs.head? ≠ some '\n') := by
  simp [StrayBreak, List.head?_eq_getElem?]

/-- Line breaks are blanks. -/
theorem isBlank_of_isLineBreak (hc : isLineBreak c = true) : isBlank c = true := by
  obtain ⟨r, hr, hlow, hhigh⟩ := inRanges_iff.1 hc
  have hinside : ∀ r ∈ lineBreakRanges, ∃ b ∈ blankRanges, b.1 ≤ r.1 ∧ r.2 ≤ b.2 := by decide
  obtain ⟨b, hb, hb₁, hb₂⟩ := hinside r hr
  exact inRanges_iff.2 ⟨b, hb, by omega, by omega⟩

theorem not_isLineBreak (hc : isBlank c = false) : isLineBreak c = false :=
  Bool.eq_false_iff.2 fun hbreak => by
    rw [isBlank_of_isLineBreak hbreak] at hc
    cases hc

/-- The ways in which a text goes on: with a break of two characters, a break of one, or a
character of the line that is begun. -/
theorem splitLines_cases (begun : List Char) (c : Char) (cs : List Char) :
    (c = '\r' ∧ ∃ ds, cs = '\n' :: ds ∧
      splitLines begun (c :: cs) = begun.reverse :: splitLines [] ds) ∨
    (isLineBreak c = true ∧ (c = '\r' → cs.head? ≠ some '\n') ∧
      splitLines begun (c :: cs) = begun.reverse :: splitLines [] cs) ∨
    (isLineBreak c = false ∧ splitLines begun (c :: cs) = splitLines (c :: begun) cs) := by
  by_cases hpair : c = '\r' ∧ cs.head? = some '\n'
  · obtain ⟨rfl, hhead⟩ := hpair
    obtain ⟨ds, rfl⟩ := List.head?_eq_some_iff.1 hhead
    exact .inl ⟨rfl, ds, rfl, rfl⟩
  have hsplit : splitLines begun (c :: cs) =
      if isLineBreak c then begun.reverse :: splitLines [] cs else splitLines (c :: begun) cs := by
    rw [splitLines]
    rintro ds rfl rfl
    exact hpair ⟨rfl, rfl⟩
  rw [hsplit]
  by_cases hc : isLineBreak c = true
  · exact .inr (.inl ⟨hc, fun hr hhead => hpair ⟨hr, hhead⟩, if_pos hc⟩)
  · exact .inr (.inr ⟨Bool.eq_false_iff.2 hc, if_neg hc⟩)

theorem getElem?_append_cons {α : Type} (xs ys : List α) (x : α) :
    (xs ++ x :: ys)[xs.length]? = some x := by
  rw [List.getElem?_append_right (Nat.le_refl _), Nat.sub_self, List.getElem?_cons_zero]

/-- Nothing behind a newline belongs to the first line. -/
theorem takeWhile_append_newline (ds cs : List Char) :
    (ds ++ '\n' :: cs).takeWhile (· ≠ '\n') = ds.takeWhile (· ≠ '\n') := by
  induction ds with
  | nil => simp
  | cons d ds ih =>
    by_cases hd : d = '\n'
    · simp [hd]
    · simpa [hd] using ih

/-- Lines of a text, break by break up to where `rest` stands: what holds of the lines there, and of
one line more or one character more in front, holds of all lines. -/
theorem splitLines_induction {motive : List Char → List Char → List (List Char) → Prop}
    (hrest : rest.head? ≠ some '\n') (nil : ∀ begun, motive begun [] (splitLines begun rest))
    (pair : ∀ begun pre ls, motive [] pre ls →
      motive begun ('\r' :: '\n' :: pre) (begun.reverse :: ls))
    (single : ∀ begun c pre ls, isLineBreak c = true →
      (c = '\r' → (pre ++ rest).head? ≠ some '\n') → motive [] pre ls →
      motive begun (c :: pre) (begun.reverse :: ls))
    (char : ∀ begun c pre ls, isLineBreak c = false → motive (c :: begun) pre ls →
      motive begun (c :: pre) ls) (begun pre : List Char) :
    motive begun pre (splitLines begun (pre ++ rest)) := by
  induction hn : pre.length using Nat.strongRecOn generalizing begun pre with
  | ind n ih =>
    subst hn
    cases pre with
    | nil => exact nil begun
    | cons c pre =>
      rw [List.cons_append]
      rcases splitLines_cases begun c (pre ++ rest) with ⟨rfl, ds, hds, he⟩ | ⟨hc, hpair, he⟩ |
        ⟨hc, he⟩
      · -- the line feed behind the carriage return is no part of the rest
        cases pre with
        | nil => exact absurd (congrArg List.head? hds) hrest
        | cons d pre =>
          obtain ⟨rfl, rfl⟩ := List.cons.inj hds
          rw [he]
          exact pair begun pre _ (ih pre.length (by simp only [List.length_cons]; omega) [] pre rfl)
      · rw [he]
        exact single begun c pre _ hc hpair (ih pre.length (by simp) [] pre rfl)
      · rw [he]
        exact char begun c pre _ hc (ih pre.length (by simp) (c :: begun) pre rfl)

/-- **Lines are counted by line feeds up to where another break stands.** What stands behind goes
on with what the last line feed leaves of the text. -/
theorem splitLines_append (hbegun : '\n' ∉ begun)
    (hpre : ∀ i < pre.length, ¬ StrayBreak (pre ++ rest) i) (hrest : rest.head? ≠ some '\n') :
    ∃ before, before.length = pre.count '\n' ∧ splitLines begun (pre ++ rest) =
      before ++ splitLines ((pre.reverse ++ begun).takeWhile (· ≠ '\n')) rest := by
  have htail : ∀ {c : Char} {ds : List Char},
      (∀ i < (c :: ds).length, ¬ StrayBreak (c :: ds ++ rest) i) →
      ∀ i < ds.length, ¬ StrayBreak (ds ++ rest) i := fun h i hi hstray =>
    h (i + 1) (by simpa using hi) (strayBreak_cons.2 hstray)
  refine splitLines_induction (motive := fun begun pre ls => '\n' ∉ begun →
    (∀ i < pre.length, ¬ StrayBreak (pre ++ rest) i) → ∃ before, before.length = pre.count '\n' ∧
      ls = before ++ splitLines ((pre.reverse ++ begun).takeWhile (· ≠ '\n')) rest)
    hrest ?_ ?_ ?_ ?_ begun pre hbegun hpre
  · intro begun hbegun _
    have hne : ∀ d ∈ begun, decide (d ≠ '\n') = true := fun d hd =>
      decide_eq_true fun he => hbegun (he ▸ hd)
    have hall : begun.takeWhile (· ≠ '\n') = begun := by
      have h := takeWhile_append_of_apart hne (show Apart _ [] from nofun)
      rwa [List.append_nil] at h
    refine ⟨[], rfl, ?_⟩
    rw [List.nil_append, List.reverse_nil, List.nil_append, hall]
  · intro begun pre ls ih _ hpre
    obtain ⟨before, hlength, rfl⟩ := ih (by simp) (htail (htail hpre))
    refine ⟨begun.reverse :: before, by simp [hlength], ?_⟩
    rw [List.reverse_cons, List.reverse_cons, List.append_assoc, List.append_assoc,
      List.append_nil, List.singleton_append, takeWhile_append_newline, List.cons_append]
  · intro begun c pre ls hc hpair ih _ hpre
    obtain rfl : c = '\n' := by
      by_contra hne
      exact hpre 0 (by simp) (strayBreak_zero.2 ⟨hc, hne, hpair⟩)
    obtain ⟨before, hlength, rfl⟩ := ih (by simp) (htail hpre)
    refine ⟨begun.reverse :: before, by simp [hlength], ?_⟩
    rw [List.reverse_cons, List.append_assoc, List.append_nil, List.singleton_append,
      takeWhile_append_newline, List.cons_append]
  · intro begun c pre ls hc ih hbegun hpre
    have hne : c ≠ '\n' := by
      rintro rfl
      exact absurd hc (by decide)
    obtain ⟨before, hlength, rfl⟩ := ih (by simpa using ⟨hne.symm, hbegun⟩) (htail hpre)
    refine ⟨before, by simp [hlength, hne], ?_⟩
    rw [List.reverse_cons, List.append_assoc, List.singleton_append]

/-- A line that is begun goes on, and nothing else comes before it. -/
theorem splitLines_begun (hne : begun ≠ []) (cs : List Char) :
    ∃ tail more, splitLines begun cs = (begun.reverse ++ tail) :: more := by
  induction cs generalizing begun with
  | nil => exact ⟨[], [], by simp [splitLines, hne]⟩
  | cons c cs ih =>
    rcases splitLines_cases begun c cs with ⟨-, ds, -, he⟩ | ⟨-, -, he⟩ | ⟨-, he⟩
    · exact ⟨[], _, by rw [he, List.append_nil]⟩
    · exact ⟨[], _, by rw [he, List.append_nil]⟩
    · obtain ⟨tail, more, hmore⟩ := ih (List.cons_ne_nil c begun)
      exact ⟨c :: tail, more, by rw [he, hmore, List.reverse_cons, List.append_assoc]; rfl⟩

/-- Characters that are no breaks are all of the line that is begun. -/
theorem splitLines_run (hds : ∀ d ∈ ds, isLineBreak d = false) (hne : ds ≠ []) :
    ∃ tail more, splitLines begun (ds ++ rest) = (begun.reverse ++ ds ++ tail) :: more := by
  induction ds generalizing begun with
  | nil => exact absurd rfl hne
  | cons d ds ih =>
    obtain ⟨hd, hds⟩ := List.forall_mem_cons.1 hds
    have he : splitLines begun (d :: ds ++ rest) = splitLines (d :: begun) (ds ++ rest) := by
      rcases splitLines_cases begun d (ds ++ rest) with ⟨rfl, -⟩ | ⟨hbreak, -⟩ | ⟨-, he⟩
      · exact absurd hd (by decide)
      · rw [hd] at hbreak
        cases hbreak
      · exact he
    cases ds with
    | nil =>
      obtain ⟨tail, more, hmore⟩ := splitLines_begun (List.cons_ne_nil d begun) rest
      exact ⟨tail, more, by rw [he, List.nil_append, hmore, List.reverse_cons]⟩
    | cons d' ds =>
      have hbegun : ∃ tail more, splitLines (d :: begun) (d' :: ds ++ rest) =
          ((d :: begun).reverse ++ d' :: ds ++ tail) :: more := ih hds (List.cons_ne_nil _ _)
      obtain ⟨tail, more, hmore⟩ := hbegun
      exact ⟨tail, more, by rw [he, hmore]; simp⟩

/-- Of a text that starts with blanks, the first lines are blank, one for each line feed among
them. -/
theorem splitLines_blanks (hds : ∀ d ∈ ds, isBlank d = true) (hrest : rest.head? ≠ some '\n')
    {l : List Char} (hi : i < ds.count '\n') (hl : (splitLines [] (ds ++ rest))[i]? = some l) :
    ∀ d ∈ l, isBlank d = true := by
  refine splitLines_induction (motive := fun begun ds ls => (∀ d ∈ begun, isBlank d = true) →
    (∀ d ∈ ds, isBlank d = true) → ∀ i < ds.count '\n', ∀ l ∈ ls[i]?, ∀ d ∈ l, isBlank d = true)
    hrest ?_ ?_ ?_ ?_ [] ds (by simp) hds i hi l hl
  · intro begun _ _ i hi
    exact absurd hi (Nat.not_lt_zero i)
  · intro begun pre ls ih hbegun hds i hi l hl
    cases i with
    | zero =>
      obtain rfl := Option.some.inj hl
      simpa using hbegun
    | succ i =>
      have hpre := (List.forall_mem_cons.1 (List.forall_mem_cons.1 hds).2).2
      exact ih (by simp) hpre i (by simpa using hi) l hl
  · intro begun c pre ls _ _ ih hbegun hds i hi l hl
    cases i with
    | zero =>
      obtain rfl := Option.some.inj hl
      simpa using hbegun
    | succ i =>
      have hcount : (c :: pre).count '\n' ≤ pre.count '\n' + 1 := by
        rw [List.count_cons]
        split <;> omega
      exact ih (by simp) (List.forall_mem_cons.1 hds).2 i (by omega) l hl
  · intro begun c pre ls hc ih hbegun hds i hi l hl
    obtain ⟨hblank, hds⟩ := List.forall_mem_cons.1 hds
    have hne : c ≠ '\n' := by
      rintro rfl
      exact absurd hc (by decide)
    refine ih (List.forall_mem_cons.2 ⟨hblank, hbegun⟩) hds i ?_ l hl
    rwa [List.count_cons_of_ne hne] at hi

/-- At the first break that is no line feed a line ends, though no line is counted. -/
theorem splitLines_stray (hpre : ∀ i < pre.length, ¬ StrayBreak (pre ++ c :: rest) i)
    (hstray : StrayBreak (pre ++ c :: rest) pre.length) :
    ∃ before, before.length = pre.count '\n' ∧ splitLines [] (pre ++ c :: rest) =
      before ++ (pre.reverse.takeWhile (· ≠ '\n')).reverse :: splitLines [] rest := by
  have hzero : StrayBreak (c :: rest) 0 := by
    obtain ⟨d, hd, hstray⟩ := hstray
    exact ⟨d, by simpa using hd, by simpa [List.getElem?_append_right] using hstray⟩
  obtain ⟨hbreak, hne, hpair⟩ := strayBreak_zero.1 hzero
  have hhead : (c :: rest).head? ≠ some '\n' := fun h => hne (Option.some.inj h)
  obtain ⟨before, hlength, he⟩ := splitLines_append (List.not_mem_nil) hpre hhead
  refine ⟨before, hlength, ?_⟩
  rw [he, List.append_nil]
  rcases splitLines_cases (pre.reverse.takeWhile (· ≠ '\n')) c rest with
    ⟨rfl, ds, rfl, -⟩ | ⟨-, -, he⟩ | ⟨hc, -⟩
  · exact absurd rfl (hpair rfl)
  · rw [he]
  · rw [hbreak] at hc
    cases hc

-- a vertical tab ends a line, though no line is counted there
example : splitLines [] ['1', Char.ofNat 0xb, '2'] = [['1'], ['2']] := by decide

/-! ## Texts in lines -/

/-- The characters `es` stand in the line and at the column that the line feeds before the offset
`k` tell. -/
def Quotes (cs : List Char) (k : Nat) (es : List Char) : Prop :=
  ∃ l ∈ (splitLines [] cs)[(cs.take k).count '\n']?,
    (l.drop ((cs.take k).reverse.takeWhile (· ≠ '\n')).length).take es.length = es

variable {es gap : List Char}

/-- A token starts with no newline. -/
theorem head_ne_newline (hes : ∀ e ∈ es, isBlank e = false) (hne : es ≠ []) :
    (es ++ rest).head? ≠ some '\n' := by
  obtain ⟨e, es, rfl⟩ := List.exists_cons_of_ne_nil hne
  intro h
  obtain rfl : e = '\n' := Option.some.inj h
  exact absurd (hes '\n' List.mem_cons_self) (by decide)

/-- Characters that are no blanks stand in their line, if only line feeds end the lines before. -/
theorem quotes_of_lineFeeds (hes : ∀ e ∈ es, isBlank e = false) (hne : es ≠ [])
    (hpre : ∀ i < pre.length, ¬ StrayBreak (pre ++ (es ++ rest)) i) :
    Quotes (pre ++ (es ++ rest)) pre.length es := by
  obtain ⟨before, hlength, he⟩ := splitLines_append List.not_mem_nil hpre (head_ne_newline hes hne)
  obtain ⟨tail, more, hrun⟩ := splitLines_run (fun e he => not_isLineBreak (hes e he)) hne
  rw [hrun, List.append_nil] at he
  rw [Quotes, List.take_left, he, ← hlength, getElem?_append_cons]
  refine ⟨_, rfl, ?_⟩
  simp

/-- Behind the first break that is no line feed, the next characters that are no blanks do not stand
in the line that is counted: that line ends before them, or is blank. -/
theorem not_quotes_of_stray (hes : ∀ e ∈ es, isBlank e = false) (hne : es ≠ [])
    (hgap : ∀ d ∈ gap, isBlank d = true)
    (hpre : ∀ i < pre.length, ¬ StrayBreak (pre ++ c :: (gap ++ (es ++ rest))) i)
    (hstray : StrayBreak (pre ++ c :: (gap ++ (es ++ rest))) pre.length) :
    ¬ Quotes (pre ++ c :: (gap ++ (es ++ rest))) (pre.length + (1 + gap.length)) es := by
  have hc : c ≠ '\n' := by
    obtain ⟨d, hd, -, hd', -⟩ := hstray
    rw [getElem?_append_cons] at hd
    obtain rfl := Option.some.inj hd
    exact hd'
  have htake : (pre ++ c :: (gap ++ (es ++ rest))).take (pre.length + (1 + gap.length)) =
      pre ++ c :: gap := by
    rw [List.take_length_add_append, Nat.add_comm, List.take_succ_cons, List.take_left]
  obtain ⟨before, hlength, he⟩ := splitLines_stray hpre hstray
  rintro ⟨l, hl, hshown⟩
  rw [htake, List.count_append, List.count_cons_of_ne hc, he, ← hlength] at hl
  rw [htake] at hshown
  rcases Nat.eq_zero_or_pos (gap.count '\n') with hzero | hpos
  · -- the line ends at the break, which is counted as one of its characters
    have hall : ∀ d ∈ gap.reverse ++ [c], decide (d ≠ '\n') = true := by
      intro d hd
      rcases List.mem_append.1 hd with hd | hd
      · have hmem := List.mem_reverse.1 hd
        exact decide_eq_true (ne_of_mem_of_not_mem hmem (List.count_eq_zero.1 hzero))
      · exact decide_eq_true (List.mem_singleton.1 hd ▸ hc)
    rw [hzero, Nat.add_zero, getElem?_append_cons] at hl
    obtain rfl := Option.some.inj hl
    rw [List.reverse_append, List.reverse_cons, List.takeWhile_append_of_pos hall,
      List.drop_eq_nil_of_le, List.take_nil] at hshown
    · exact hne hshown.symm
    · rw [List.length_reverse, List.length_append]
      exact Nat.le_add_left _ _
  · -- a line behind the break and before the characters
    obtain ⟨i, hi⟩ := Nat.exists_eq_add_of_lt hpos
    rw [hi, List.getElem?_append_right (by omega)] at hl
    have hblank : ∀ d ∈ l, isBlank d = true :=
      splitLines_blanks hgap (head_ne_newline hes hne) (show i < _ by omega) (by simpa using hl)
    obtain ⟨e, es, rfl⟩ := List.exists_cons_of_ne_nil hne
    have hmem : e ∈ l := List.mem_of_mem_drop (List.mem_of_mem_take (hshown ▸ List.mem_cons_self))
    cases (hes e List.mem_cons_self).symm.trans (hblank e hmem)

/-! ## Tokens in lines -/

/-- No character of a lexeme is a blank. -/
theorem lexeme_not_blank (hc : isBlank c = false) :
    ∀ d ∈ (lexeme c cs).text, isBlank d = false := by
  have hword : ∀ d, isWordChar d = true → isBlank d = false := fun d hd =>
    Bool.eq_false_iff.2 fun hblank => by
      rw [isBlank_not_wordChar hblank] at hd
      cases hd
  have htail : ∀ p : Char → Bool, (∀ d, p d = true → isWordChar d = true) →
      ∀ d ∈ c :: cs.takeWhile p, isBlank d = false := by
    intro p hp
    refine List.forall_mem_cons.2 ⟨hc, fun d hd => ?_⟩
    have hpd : p d = true := List.all_eq_true.1 List.all_takeWhile d hd
    exact hword d (hp d hpd)
  have heq : isBlank '=' = false := by decide
  unfold lexeme
  split
  · exact htail isDigit fun _ => isDigit_wordChar
  split
  · exact htail isWordChar fun _ => id
  split
  · exact List.forall_mem_cons.2 ⟨hc, List.forall_mem_singleton.2 heq⟩
  all_goals exact List.forall_mem_singleton.2 hc

namespace Source

variable {s : Source} {t : Token}

/-- The token stands in the quoted line of its number, at its column. -/
def Shows (s : Source) (t : Token) : Prop :=
  ∃ line, s.line? t.span.start.line = some line ∧
    (line.toList.drop (t.span.start.column - 1)).take t.text.length = t.text.toList

/-- Every token of a source is held by it. -/
theorem holds_of_mem (ht : t ∈ s.programTokens) : s.Holds t := by
  obtain ⟨before, he, hbefore⟩ := s.tokenization_tokens.ended
  rw [programTokens, he, List.dropLast_concat] at ht
  exact (hbefore t ht).2

/-- The characters of a token stand between those before and those behind it. -/
theorem Holds.exists_append (h : s.Holds t) :
    ∃ pre rest, s.chars = pre ++ (t.text.toList ++ rest) ∧ pre.length = t.offset ∧
      t.span.stop.offset = t.offset + t.text.toList.length ∧
      t.text.toList ≠ [] ∧ ∀ e ∈ t.text.toList, isBlank e = false := by
  obtain ⟨c, ds, hdrop⟩ := h.exists_drop
  obtain ⟨d, hd, hblank⟩ := h.not_blank
  obtain rfl : c = d := Option.some.inj ((getElem?_of_drop hdrop).symm.trans hd)
  have htoken := h.eq_lexemeToken hdrop
  have htext : t.text.toList = (lexeme c ds).text := by
    rw [htoken]
    exact String.toList_ofList
  have hle : t.offset ≤ s.chars.length := Nat.le_trans (Nat.le_of_lt h.lt) h.le
  refine ⟨s.chars.take t.offset, (lexeme c ds).rest, ?_, ?_, ?_, ?_, ?_⟩
  · rw [htext, lexeme_append, ← hdrop]
    exact (List.take_append_drop _ _).symm
  · rw [List.length_take, Nat.min_eq_left hle]
  · rw [htext]
    exact congrArg (·.span.stop.offset) htoken
  · rw [htext]
    exact lexeme_text_ne_nil c ds
  · rw [htext]
    exact lexeme_not_blank hblank

/-- The line of a place is the one after as many newlines as stand in front. -/
theorem line?_place (s : Source) (k : Nat) :
    s.line? (s.place k).line =
      (splitLines [] s.chars)[(s.chars.take k).count '\n']?.map String.ofList := by
  have hline : (1 : Int) ≤ (s.place k).line := Int.ofNat_le.2 (Nat.le_add_right 1 _)
  rw [line?, if_pos hline, Int.toNat_natCast, place, Nat.add_sub_cancel_left, Text.lines,
    List.getElem?_map]

/-- A source shows a token exactly if its characters quote it. -/
theorem Holds.shows_iff_quotes (h : s.Holds t) :
    s.Shows t ↔ Quotes s.chars t.offset t.text.toList := by
  have hcolumn : (s.place t.offset).column - 1 =
      ((s.chars.take t.offset).reverse.takeWhile (· ≠ '\n')).length := Nat.add_sub_cancel_left 1 _
  rw [Shows, Quotes, h.start, ← Token.offset, hcolumn, line?_place]
  constructor
  · rintro ⟨line, hline, hshown⟩
    obtain ⟨l, hl, rfl⟩ := Option.map_eq_some_iff.1 hline
    rw [String.toList_ofList] at hshown
    exact ⟨l, hl, hshown⟩
  · rintro ⟨l, hl, hshown⟩
    refine ⟨String.ofList l, by rw [hl]; rfl, ?_⟩
    rwa [String.toList_ofList]

/-- Between a blank and the next token there are only blanks. -/
theorem isBlank_of_between {b k : Nat} (hb : ∀ c ∈ s.chars[b]?, isBlank c = true)
    (hnext : ∀ u ∈ s.programTokens, b < u.offset → k ≤ u.offset) (hi : b ≤ i) (hik : i < k)
    (hc : s.chars[i]? = some c) : isBlank c = true := by
  refine s.tokenization_tokens.covered i c (Nat.zero_le i) hc fun u hu ⟨hle, hlt⟩ => ?_
  obtain ⟨before, he, -⟩ := s.tokenization_tokens.ended
  have hprogram : s.programTokens = before := by rw [programTokens, he, List.dropLast_concat]
  rw [he, ← hprogram, List.mem_append, List.mem_singleton] at hu
  rcases hu with hu | rfl
  · obtain ⟨pre, rest, hchars, hpre, hstop, -, htext⟩ := (holds_of_mem hu).exists_append
    have hub : u.offset ≤ b := Nat.le_of_not_lt fun hlt =>
      absurd (hnext u hu hlt) (Nat.not_le_of_lt (Nat.lt_of_le_of_lt hle hik))
    -- the blank would be one of the characters of the token
    have hin : b - pre.length < u.text.toList.length := by omega
    have hget : s.chars[b]? = some u.text.toList[b - pre.length] := by
      rw [hchars, List.getElem?_append_right (by omega), List.getElem?_append_left hin,
        List.getElem?_eq_getElem hin]
    cases (hb _ hget).symm.trans (htext _ (List.getElem_mem hin))
  · exact absurd hlt (Nat.not_lt_of_le hle)

theorem exists_least {p : Nat → Prop} {n : Nat} (h : p n) :
    ∃ m ≤ n, p m ∧ ∀ j < m, ¬ p j := by
  classical
  exact ⟨Nat.find ⟨n, h⟩, Nat.find_le h, Nat.find_spec ⟨n, h⟩, fun _ => Nat.find_min ⟨n, h⟩⟩

/-- Behind a break that is no line feed, some token does not stand in its line. -/
theorem exists_not_shows (ht : t ∈ s.programTokens) (hi : i < t.offset)
    (hstray : StrayBreak s.chars i) : ∃ u ∈ s.programTokens, ¬ s.Shows u := by
  -- the first such break, and the first token behind it
  obtain ⟨b, hbi, hb, hfirst⟩ := exists_least hstray
  obtain ⟨k, -, ⟨hbk, u, hu, rfl⟩, hnext⟩ :=
    exists_least (p := fun k => b < k ∧ ∃ u ∈ s.programTokens, u.offset = k)
      ⟨Nat.lt_of_le_of_lt hbi hi, t, ht, rfl⟩
  have hblank : ∀ c ∈ s.chars[b]?, isBlank c = true := by
    obtain ⟨d, hd, hbreak, -⟩ := hb
    intro c hc
    obtain rfl := Option.some.inj (hd.symm.trans hc)
    exact isBlank_of_isLineBreak hbreak
  have hgap : ∀ j c, b ≤ j → j < u.offset → s.chars[j]? = some c → isBlank c = true :=
    fun _ _ => isBlank_of_between hblank fun v hv hbv =>
      Nat.le_of_not_lt fun hlt => hnext v.offset hlt ⟨hbv, v, hv, rfl⟩
  obtain ⟨pre, rest, hchars, hpre, -, hne, htext⟩ := (holds_of_mem hu).exists_append
  rw [← hpre] at hbk
  obtain ⟨front, c, gap, rfl, rfl⟩ : ∃ front c gap, pre = front ++ c :: gap ∧ front.length = b :=
    ⟨pre.take b, pre[b], pre.drop (b + 1),
      by rw [← List.drop_eq_getElem_cons, List.take_append_drop],
      List.length_take_of_le (Nat.le_of_lt hbk)⟩
  rw [List.append_assoc, List.cons_append] at hchars
  refine ⟨u, hu, fun hshows => ?_⟩
  have hquotes := (holds_of_mem hu).shows_iff_quotes.1 hshows
  rw [hchars] at hb hfirst
  rw [← hpre, List.length_append, List.length_cons, Nat.add_comm gap.length, hchars] at hquotes
  refine not_quotes_of_stray htext hne (fun d hd => ?_) hfirst hb hquotes
  obtain ⟨j, hj, rfl⟩ := List.getElem_of_mem hd
  have hlength : u.offset = front.length + (gap.length + 1) := by
    rw [← hpre, List.length_append, List.length_cons]
  refine hgap (front.length + (j + 1)) _ (by omega) (by omega) ?_
  rw [hchars, List.getElem?_append_right (by omega), Nat.add_sub_cancel_left,
    List.getElem?_cons_succ, List.getElem?_append_left hj, List.getElem?_eq_getElem hj]

/-- **The quoted lines show every token at its line and column, exactly if every line break before
the last one is a line feed**, alone or behind a carriage return. -/
theorem shows_iff (s : Source) :
    (∀ t ∈ s.programTokens, s.Shows t) ↔
      ∀ t ∈ s.programTokens.getLast?, ∀ i < t.offset, ¬ StrayBreak s.chars i := by
  constructor
  · intro hshows t ht i hi hstray
    obtain ⟨u, hu, hnot⟩ := exists_not_shows (List.mem_of_getLast? ht) hi hstray
    exact hnot (hshows u hu)
  · intro hpre t ht
    obtain ⟨last, hlast⟩ : ∃ last, s.programTokens.getLast? = some last :=
      Option.ne_none_iff_exists'.1 fun hnone => by
        rw [List.getLast?_eq_none_iff.1 hnone] at ht
        cases ht
    have hle : t.offset ≤ last.offset := by
      obtain ⟨init, he⟩ := List.getLast?_eq_some_iff.1 hlast
      have hoffsets := s.tokens_offsets.sublist (List.dropLast_sublist _)
      rw [← programTokens, he] at hoffsets
      rcases List.mem_append.1 (he ▸ ht) with ht | ht
      · exact Nat.le_of_lt ((List.pairwise_append.1 hoffsets).2.2 t ht last (by simp))
      · rw [List.mem_singleton.1 ht]
    obtain ⟨pre, rest, hchars, hlength, -, hne, htext⟩ := (holds_of_mem ht).exists_append
    refine (holds_of_mem ht).shows_iff_quotes.2 ?_
    rw [hchars, ← hlength]
    refine quotes_of_lineFeeds htext hne fun i hi => ?_
    rw [← hchars]
    exact hpre last hlast i (by omega)

end Source

end Ember

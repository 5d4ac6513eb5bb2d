import Ember.Proofs.Eval.Sequence
import Ember.Proofs.Grammar.Joined
import Ember.Proofs.Session.Layout

/-!
# One source behind the other

Two sources in turn do what one source does that holds both, if the first ends in a
semicolon (`Heap.evaluate_joined`).
-/

namespace Ember

open Heap Text

variable {s s₁ s₂ : Source} {gap : String} {limits : Limits} {p p₁ p₂ : Parsed}

/-! ## Tokens -/

/-- Tokens that end in a semicolon are lexed from a text whose last piece is one. -/
theorem Source.pieces_of_semicolon (hend : ¬ Unterminated s.programTokens) :
    ∃ bs, pieces s.text.toList = bs ++ [(.semicolon, ";")] := by
  rw [← s.programTokens_bare]
  rcases List.eq_nil_or_concat s.programTokens with hnil | ⟨ts, t, hts⟩
  · rw [hnil] at hend
    exact absurd nofun hend
  rw [List.concat_eq_append] at hts
  have hkind : t.kind = .semicolon := by
    rw [hts] at hend
    by_contra hne
    exact hend ((unterminated_singleton.2 hne).behind ts (by simp))
  have hmem : t ∈ s.tokens := by
    obtain ⟨last, he, -⟩ := s.tokens_eq
    rw [he, hts]
    simp
  have htext : t.text = ";" := tokens_spelling hmem (by rw [hkind]; rfl)
  exact ⟨ts.map Token.bare, by
    rw [hts, List.map_append, List.map_singleton, Token.bare, hkind, htext]⟩

/-- The tokens of a source in front of another, if they end in a semicolon. -/
theorem Source.programTokens_joined (hs : s.text = s₁.text ++ gap ++ s₂.text)
    (hgap : Blanks gap.toList) (hend : ¬ Unterminated s₁.programTokens) :
    s.programTokens.map Token.bare = (s₁.programTokens ++ s₂.programTokens).map Token.bare := by
  obtain ⟨bs, hbs⟩ := pieces_of_semicolon hend
  rw [List.map_append, s.programTokens_bare, s₁.programTokens_bare, s₂.programTokens_bare, hs,
    String.toList_append, String.toList_append, List.append_assoc,
    pieces_append_of_semicolon hbs, pieces_blanks hgap]

/-! ## Trees -/

/-- Both sources are parsed as one is that holds both, if that is not short of levels. -/
theorem Source.parse_joined (hs : s.text = s₁.text ++ gap ++ s₂.text) (hgap : Blanks gap.toList)
    (hend : ¬ Unterminated s₁.programTokens) (hl : 1 ≤ limits.problems)
    (h₁ : s₁.parse limits = .ok p₁) (hp₁ : p₁.problems = #[]) (h₂ : s₂.parse limits = .ok p₂)
    (hp₂ : p₂.problems = #[])
    (hdeep : ∀ p place, s.parse limits = .ok p → p.ending ≠ .tooDeep place) :
    ∃ p, s.parse limits = .ok p ∧ p.problems = #[] ∧ p.program.statements.map Node.erase =
      (p₁.program.statements ++ p₂.program.statements).map Node.erase := by
  have hreads := (parse_reads hl h₁ hp₁).2.statements_refollow hend
    (firstKind s₂.programTokens .endOfText)
  obtain ⟨ns, hns, hns'⟩ := (hreads.statements_append (parse_reads hl h₂ hp₂).2).of_bare
    (programTokens_joined hs hgap hend).symm
  obtain ⟨depth, -, -, hdepth, -⟩ := parse_run h₁
  have hlimit : limits.depth ≤ maxDepthLimit := by
    rw [depthBudget_eq] at hdepth
    by_contra hlt
    rw [if_pos (Int.not_le.1 hlt)] at hdepth
    cases hdepth
  have hreadable : Readable s.tokens := by
    obtain ⟨last, he, hlast, -⟩ := s.tokens_eq
    rw [he, readable_append]
    exact ⟨hns'.readable trivial, by simp [hlast]⟩
  obtain ⟨p, hp⟩ := s.parse_ok hlimit hreadable
  obtain ⟨hproblems, hstatements⟩ := parse_of_reads hl hp (.inr fun place => hdeep p place hp) hns'
  exact ⟨p, hp, hproblems, by rw [hstatements, hns]⟩

/-! ## Calls -/

/-- Two calls in turn: the second is made if the first came to a value. What they come to is
what the last of them does. -/
def Heap.evaluateInTurn (h : Heap) (f : FrameId) (s₁ s₂ : Source) (limits : Limits)
    (rounds : Nat) : Except Fault Outcome × Heap :=
  let first := h.evaluate f s₁ limits rounds
  match Evaluated.result first.1 with
  | .ok (.finished _) =>
    let second := first.2.evaluate f s₂ limits rounds
    (Evaluated.result second.1, second.2)
  | r => (r, first.2)

theorem Heap.evaluate_result (h : Heap) (f : FrameId) (rounds : Nat)
    (hparse : s.parse limits = .ok p) (hp : p.problems = #[]) :
    Evaluated.result (h.evaluate f s limits rounds).1 =
      (h.run f p.program limits.depth rounds).1.map (Outcome.quoting s) ∧
    (h.evaluate f s limits rounds).2 = (h.run f p.program limits.depth rounds).2 := by
  rw [evaluate_of_no_problems h f rounds hparse hp]
  exact ⟨rfl, rfl⟩

/-- A source whose statements are those of two others is evaluated like the two in turn. -/
theorem Heap.evaluate_alike_inTurn (h : Heap) (f : FrameId) (rounds : Nat)
    (hparse : s.parse limits = .ok p) (hp : p.problems = #[]) (h₁ : s₁.parse limits = .ok p₁)
    (hp₁ : p₁.problems = #[]) (h₂ : s₂.parse limits = .ok p₂) (hp₂ : p₂.problems = #[])
    (hns : p.program.statements.map Node.erase =
      (p₁.program.statements ++ p₂.program.statements).map Node.erase)
    (hne : p₂.program.statements ≠ []) :
    OutcomesAlike (Evaluated.result (h.evaluate f s limits rounds).1)
        (h.evaluateInTurn f s₁ s₂ limits rounds).1 ∧
      (h.evaluate f s limits rounds).2.Alike (h.evaluateInTurn f s₁ s₂ limits rounds).2 := by
  obtain ⟨⟨span, ns⟩, problems, ending⟩ := p
  rw [List.map_append] at hns
  obtain ⟨as, bs, rfl, has, hbs⟩ := List.map_eq_append_iff.1 hns
  have hbs' : bs ≠ [] := fun hnil => hne (List.map_eq_nil_iff.1 (by rw [← hbs, hnil]; rfl))
  obtain ⟨hresult, hheap⟩ := h.evaluate_result f rounds hparse hp
  obtain ⟨hresult₁, hheap₁⟩ := h.evaluate_result f rounds h₁ hp₁
  rw [hresult, hheap, run_append h f span as hbs']
  unfold evaluateInTurn
  dsimp only
  rw [hresult₁, hheap₁]
  -- the first part runs like the first source
  obtain ⟨hfirst, hran⟩ := (Heap.Alike.refl h).run f (p := ⟨span, as⟩)
    (Node.forall₂_alike_nowhere.2 has) limits.depth rounds
  generalize h.run f ⟨span, as⟩ limits.depth rounds = r at hfirst hran ⊢
  generalize h.run f p₁.program limits.depth rounds = r₁ at hfirst hran ⊢
  obtain ⟨o, g⟩ := r
  obtain ⟨o₁, g₁⟩ := r₁
  dsimp only at hfirst hran ⊢
  cases hran with
  | fault reason => exact ⟨.fault reason, hfirst⟩
  | failed cause _ => exact ⟨.ok (.failed cause rfl), hfirst⟩
  | finished _ =>
    -- and the second part in the heap that it leaves like the second source
    obtain ⟨hsecond, hran⟩ := hfirst.run f (p := ⟨span, bs⟩)
      (Node.forall₂_alike_nowhere.2 hbs) limits.depth rounds
    obtain ⟨hresult₂, hheap₂⟩ := g₁.evaluate_result f rounds h₂ hp₂
    dsimp only [Except.map, Outcome.quoting]
    rw [hresult₂, hheap₂]
    exact ⟨hran.quoting s s₂, hsecond⟩

/-- **Two sources in turn do what one source does that holds both.** The first one ends in a
semicolon, and the other has a token. Then the source with any blanks between them is parsed
to the statements of both, unless it is short of levels; and a call with it ends like the two
calls in turn, up to places, and leaves the same bindings behind. When it fails, one of its
statements failed and left this heap behind, and those behind it were not evaluated. -/
theorem Heap.evaluate_joined (hs : s.text = s₁.text ++ gap ++ s₂.text)
    (hgap : Blanks gap.toList) {t : Token} (hlast : s₁.programTokens.getLast? = some t)
    (ht : t.kind = .semicolon) (hne : s₂.programTokens ≠ []) (hl : 1 ≤ limits.problems)
    (h₁ : s₁.parse limits = .ok p₁) (hp₁ : p₁.problems = #[]) (h₂ : s₂.parse limits = .ok p₂)
    (hp₂ : p₂.problems = #[])
    (hdeep : ∀ p place, s.parse limits = .ok p → p.ending ≠ .tooDeep place) :
    ∃ p, s.parse limits = .ok p ∧ p.problems = #[] ∧
      p.program.statements.map Node.erase =
        (p₁.program.statements ++ p₂.program.statements).map Node.erase ∧
      ∀ (h : Heap) (f : FrameId) (rounds : Nat),
        OutcomesAlike (Evaluated.result (h.evaluate f s limits rounds).1)
          (h.evaluateInTurn f s₁ s₂ limits rounds).1 ∧
        (∀ g, (h.evaluate f s limits rounds).2.names g =
            (h.evaluateInTurn f s₁ s₂ limits rounds).2.names g ∧
          (h.evaluate f s limits rounds).2.shown g =
            (h.evaluateInTurn f s₁ s₂ limits rounds).2.shown g) ∧
        ∀ cause d, Evaluated.result (h.evaluate f s limits rounds).1 = .ok (.failed cause d) →
          ∃ before n after v g, p.program.statements = before ++ n :: after ∧
            h.run f ⟨p.program.span, before⟩ limits.depth rounds = (.ok (.finished v), g) ∧
            (g.run f ⟨p.program.span, [n]⟩ limits.depth rounds).1.map (Outcome.quoting s) =
              .ok (.failed cause d) ∧
            (g.run f ⟨p.program.span, [n]⟩ limits.depth rounds).2 =
              (h.evaluate f s limits rounds).2 := by
  have hend : ¬ Unterminated s₁.programTokens := fun h => h t hlast ht
  obtain ⟨p, hparse, hp, hns⟩ := Source.parse_joined hs hgap hend hl h₁ hp₁ h₂ hp₂ hdeep
  have hsome : p₂.program.statements ≠ [] := fun hnil => hne (by
    have hreads := (Source.parse_reads hl h₂ hp₂).2
    rw [hnil] at hreads
    generalize s₂.programTokens = ts at hreads
    cases hreads
    rfl)
  refine ⟨p, hparse, hp, hns, fun h f rounds => ?_⟩
  obtain ⟨hends, hheap⟩ := h.evaluate_alike_inTurn f rounds hparse hp h₁ hp₁ h₂ hp₂ hns hsome
  refine ⟨hends, fun g => ⟨hheap.names g, hheap.shown g⟩, fun cause d hfailed => ?_⟩
  obtain ⟨hresult, hafter⟩ := h.evaluate_result f rounds hparse hp
  rw [hresult] at hfailed
  obtain ⟨d', hrun⟩ : ∃ d', (h.run f p.program limits.depth rounds).1 = .ok (.failed cause d') := by
    cases hrun : (h.run f p.program limits.depth rounds).1 with
    | error reason =>
      rw [hrun] at hfailed
      cases hfailed
    | ok o =>
      rw [hrun] at hfailed
      cases o <;> cases hfailed
      exact ⟨_, rfl⟩
  obtain ⟨before, n, after, v, g, hsplit, hbefore, hn⟩ := run_failed hrun
  exact ⟨before, n, after, v, g, hsplit, hbefore, by rw [hn, hfailed], by rw [hn, hafter]⟩

/-- The first part of a session. -/
def firstPart : Source := { text := "let a = 1; a = 2; " }

/-- The other part, which divides by zero. -/
def secondPart : Source := { text := "let b = a; b / 0; a = 3" }

/-- Both parts as one source. -/
def bothParts : Source := { text := "let a = 1; a = 2; \nlet b = a; b / 0; a = 3" }

theorem evaluate_joined_quotient :
    OutcomesAlike (Evaluated.result (initial.evaluate globalFrame bothParts {} 0).1)
        (initial.evaluateInTurn globalFrame firstPart secondPart {} 0).1 ∧
      (initial.evaluate globalFrame bothParts {} 0).2.shown globalFrame =
        (initial.evaluateInTurn globalFrame firstPart secondPart {} 0).2.shown globalFrame ∧
      (Evaluated.result (initial.evaluate globalFrame bothParts {} 0).1).toOption.map
        (·.diagnostics.map Diagnostic.code) = some ["E403"] := by
  have hclean : ∀ s ∈ [firstPart, secondPart, bothParts], ∃ p, s.parse = .ok p ∧
      p.problems = #[] ∧ p.ending = .complete := by
    intro s hs
    have hrun : s.parse.toOption.map (fun p => (p.problems, p.ending)) = some (#[], .complete) := by
      revert s
      decide +kernel
    cases hp : s.parse with
    | error fault =>
      rw [hp] at hrun
      cases hrun
    | ok p =>
      rw [hp] at hrun
      obtain ⟨hproblems, hend⟩ := Prod.mk.inj (Option.some.inj hrun)
      exact ⟨p, rfl, hproblems, hend⟩
  obtain ⟨p₁, h₁, hp₁, -⟩ := hclean firstPart (by simp)
  obtain ⟨p₂, h₂, hp₂, -⟩ := hclean secondPart (by simp)
  obtain ⟨p, h, -, hend⟩ := hclean bothParts (by simp)
  have hlast : firstPart.programTokens.getLast?.map Token.kind = some .semicolon := by
    decide +kernel
  obtain ⟨t, ht, hkind⟩ := Option.map_eq_some_iff.1 hlast
  have htext : bothParts.text = firstPart.text ++ "\n" ++ secondPart.text := by decide
  have hdeep : ∀ p' place, bothParts.parse = .ok p' → p'.ending ≠ .tooDeep place := by
    intro p' place h'
    obtain rfl : p = p' := Except.ok.inj (h.symm.trans h')
    rw [hend]
    exact nofun
  have hblank : Blanks "\n".toList := by decide
  have hne : secondPart.programTokens ≠ [] := by decide +kernel
  obtain ⟨p', -, -, -, hcalls⟩ := evaluate_joined htext hblank ht hkind hne (by decide) h₁ hp₁ h₂
    hp₂ hdeep
  obtain ⟨hends, hbound, -⟩ := hcalls initial globalFrame 0
  exact ⟨hends, (hbound globalFrame).2, by decide +kernel⟩

end Ember

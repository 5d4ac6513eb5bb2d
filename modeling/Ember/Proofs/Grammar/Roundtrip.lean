import Ember.Proofs.Grammar.Printing
import Ember.Proofs.Grammar.Reread

/-!
# Printing and parsing again

A program that was parsed without a problem is printed as a text that is parsed to the same
program, up to spans, exactly when no expression stands as a statement in front of one that
is printed with a parenthesis in front (`Source.parse_print`).
-/

namespace Ember

namespace Source

variable {s : Source} {limits : Limits} {p : Parsed}

/-- A parse without a problem has read some of the tokens as the statements that it gives. It
is all of them unless no problem was allowed. -/
theorem parse_reads_some (h : s.parse limits = .ok p) (hp : p.problems = #[]) :
    ∃ ts us k, s.tokens = ts ++ us ∧ Reads (.statements p.program.statements) ts k := by
  by_cases hl : 1 ≤ limits.problems
  · obtain ⟨last, he, -⟩ := s.tokens_eq
    exact ⟨_, _, _, he, (parse_reads hl h hp).2⟩
  obtain ⟨depth, all, w', -, hrun, hproblems, hall⟩ := parse_run h
  have hround := parseStatements_round limits.problems depth #[] s.tokens.length
    (Window.ofTokens s.tokens)
  rw [hrun] at hround
  cases hround with
  | complete _ hr =>
    obtain ⟨rfl, -, -⟩ : all = #[] ∧ _ ∧ _ := by simpa using hr
    exact ⟨[], s.tokens, .endOfText, rfl, by rw [hall]; exact .noStatements⟩
  | refused _ _ hr => cases hr
  | tooDeep _ _ hr =>
    obtain ⟨-, -, rfl⟩ : _ ∧ _ ∧ w' = _ := by simpa using hr
    rw [hproblems] at hp
    simp [Window.note] at hp
  | @problemLimit n w₁ _ hs _ hr =>
    obtain ⟨rfl, -, rfl⟩ : all = _ ∧ _ ∧ w' = w₁ := by simpa using hr
    have hclean : w'.problems = (Window.ofTokens s.tokens).problems := by
      rw [← hproblems, hp, ofTokens_problems]
    obtain ⟨ts, ht, hread⟩ := parsePhrase_sound depth .statement _ _ _ s.ofTokens_ended trivial
      ⟨hs, hclean⟩
    have hpresent : n.isMissing = false := Reads.present (r := .statement n) hread
    rw [ofTokens_tokens] at ht
    refine ⟨ts, w'.ahead, w'.follow, ht, ?_⟩
    rw [hall, keep, hpresent, if_neg Bool.false_ne_true, ← List.append_nil ts]
    exact .statements hread .noStatements
  | next _ _ hnot _ =>
    have hle : limits.problems ≤ 0 := by omega
    exact absurd (Int.le_trans hle (Int.natCast_nonneg _)) hnot

/-- The text of a parsed program is lexed to the tokens that it is printed as. -/
theorem printed_tokens (h : s.parse limits = .ok p) (hp : p.problems = #[]) (file : Option String) :
    Prints (.statements p.program.statements)
      ({ text := p.program.toNode.print, file } : Source).programTokens := by
  obtain ⟨ts, us, k, htokens, hr⟩ := parse_reads_some h hp
  have hscanned : Scanned ts := fun t ht =>
    ⟨s.lexed (htokens ▸ List.mem_append_left us ht), hr.readable trivial t ht⟩
  have hlist : ListSpelled p.program.statements := Writes.printing (hr.writes trivial) hscanned
  refine programTokens_spelled (p := isWordChar) ?_
  change Spells _ (Node.program p.program.span p.program.statements).print.toList _
  rw [Node.toList_print_program hlist.present]
  exact hlist.spells '\n' (.inr rfl)

/-- **Printing and parsing again gives the same program**, up to spans, if and only if no
expression is followed by a statement whose text starts with a parenthesis. -/
theorem parse_print (limits' : Limits) (h : s.parse limits = .ok p) (hp : p.problems = #[])
    (file : Option String) (hl : 1 ≤ limits'.problems) (hd : limits'.depth ≤ maxDepthLimit) :
    ∃ p', ({ text := p.program.toNode.print, file } : Source).parse limits' = .ok p' ∧
      (4 * ({ text := p.program.toNode.print, file } : Source).tokens.length ≤ limits'.depth ∨
          (∀ place, p'.ending ≠ .tooDeep place) →
        (p'.problems = #[] ∧ p'.program.toNode.erase = p.program.toNode.erase ↔
          ∀ ns ∈ p.program.toNode.lists, Parted ns)) := by
  have hprints := printed_tokens h hp file
  generalize ({ text := p.program.toNode.print, file } : Source) = s' at hprints ⊢
  obtain ⟨last, htokens, hlast, -⟩ := s'.tokens_eq
  have hreadable : Readable s'.tokens := by
    rw [htokens]
    simp [hprints.readable, hlast]
  obtain ⟨p', hparse⟩ := s'.parse_ok hd hreadable
  refine ⟨p', hparse, fun hdeep => ⟨?_, fun hparted => ?_⟩⟩
  · rintro ⟨hp', he⟩
    have hr := (parse_reads hl hparse hp').2
    have hleaves :
        Leaves .endOfText (.statements p'.program.statements) (s'.programTokens ++ []) [] :=
      hr.leaves
    have hstatements :
        p'.program.statements.map Node.erase = p.program.statements.map Node.erase := by
      simpa [Program.toNode, Node.erase] using he
    exact (hprints.reread _ _ _ _ (.inr rfl) hleaves hstatements).1
  · have hr : Reads (.statements p.program.statements) s'.programTokens .endOfText :=
      hprints.returns hparted .endOfText (.inr rfl)
    obtain ⟨hp', he⟩ := parse_of_reads hl hparse hdeep hr
    exact ⟨hp', by simp [Program.toNode, Node.erase, he]⟩

end Source

/-- A sign behind a name is printed as the argument of a call. -/
theorem parse_print_sign :
    ∃ p p', ({ text := "f; -x" } : Source).parse = .ok p ∧ p.problems = #[] ∧
      p.program.toNode.print = "f\n(-x)" ∧
      ({ text := p.program.toNode.print } : Source).parse = .ok p' ∧
      ¬ (p'.problems = #[] ∧ p'.program.toNode.erase = p.program.toNode.erase) := by
  have hrun : (({ text := "f; -x" } : Source).parse.toOption.any fun p =>
      p.problems.isEmpty && p.program.toNode.print == "f\n(-x)" &&
        p.program.statements.map Node.kindName == ["ExpressionStatement", "ExpressionStatement"] &&
        p.program.statements.map (·.print.toList.head?) == [some 'f', some '(']) = true := by
    decide +kernel
  cases hparse : ({ text := "f; -x" } : Source).parse with
  | error fault =>
    rw [hparse] at hrun
    cases hrun
  | ok p =>
    simp only [hparse, Except.toOption, Option.any_some, Bool.and_eq_true, beq_iff_eq,
      Array.isEmpty_iff] at hrun
    obtain ⟨⟨⟨hproblems, hprint⟩, hkinds⟩, hheads⟩ := hrun
    have hparted : ¬ ∀ ns ∈ p.program.toNode.lists, Parted ns := by
      intro hall
      have hns : Parted p.program.statements := hall _ (List.mem_cons_self ..)
      -- there are two statements, and the first one is an expression
      obtain ⟨m, ms, hlist, hkind, htail⟩ := List.map_eq_cons_iff.1 hkinds
      obtain ⟨n, ns, rfl, -, hnil⟩ := List.map_eq_cons_iff.1 htail
      obtain rfl := List.map_eq_nil_iff.1 hnil
      rw [hlist] at hheads
      cases m with
      | expression span e =>
        exact hns [] span e n [] hlist (by simpa using (List.cons.inj hheads).2)
      | _ => simp [Node.kindName] at hkind
    obtain ⟨p', hparse', hiff⟩ := Source.parse_print {} hparse hproblems none (by decide)
      (by decide)
    have hshort : (4 * ({ text := "f\n(-x)" } : Source).tokens.length : Int) ≤ 10000 := by
      decide +kernel
    refine ⟨p, p', rfl, hproblems, hprint, hparse', fun h => hparted ((hiff (.inl ?_)).1 h)⟩
    rw [hprint]
    exact hshort

end Ember

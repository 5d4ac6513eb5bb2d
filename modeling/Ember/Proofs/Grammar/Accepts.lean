import Ember.Proofs.Grammar.Greedy
import Ember.Proofs.Grammar.Program

/-!
# The parser accepts its grammar

A source is parsed without a problem exactly when its tokens are derived as
statements, as long as the nesting stays within the limit; and then the tokens write the
tree.
-/

namespace Ember

/-- **The parser accepts exactly its grammar**, and the source writes what it gives. Four
levels of nesting for each token are always enough. -/
theorem Source.parse_accepts (s : Source) (limits : Limits) (hp : 1 ≤ limits.problems)
    (hd : limits.depth ≤ maxDepthLimit) (hl : Readable s.tokens) :
    ∃ p, s.parse limits = .ok p ∧
      ((∀ place, p.ending ≠ .tooDeep place) ∨ 4 * s.tokens.length ≤ limits.depth →
        (p.problems = #[] ↔ Derives .statements s.programTokens)) ∧
      (p.problems = #[] → p.ending = .complete ∧ Derives .statements s.programTokens ∧
        Writes .free (.statements p.program.statements) s.programTokens) := by
  obtain ⟨p, hparse⟩ := s.parse_ok hd hl
  have hread : p.problems = #[] → p.ending = .complete ∧
      Writes .free (.statements p.program.statements) s.programTokens := by
    intro hnone
    obtain ⟨hend, hr⟩ := parse_reads hp hparse hnone
    exact ⟨hend, hr.writes trivial⟩
  refine ⟨p, hparse, fun hdeep => ⟨fun hnone => (hread hnone).2.derives, fun h => ?_⟩,
    fun hnone => ⟨(hread hnone).1, (hread hnone).2.derives, (hread hnone).2⟩⟩
  have hreadable : Readable s.programTokens :=
    fun t ht => hl t (List.dropLast_subset s.tokens ht)
  obtain ⟨ns, hr⟩ := (h.read hreadable).reads (.inr rfl)
  exact (parse_of_reads hp hparse hdeep.symm hr).1

/-- A call and a sign after a line end, a long number, and `else if` without braces. -/
def Source.sample : Source :=
  { text := "let x = f\n(y)\n-007\nif (x) { } else if (y) { g(x, (2)) } else { x = 1; }" }

theorem parse_accepts_sample : ∃ p, Source.sample.parse = .ok p ∧ p.problems = #[] ∧
    Derives .statements Source.sample.programTokens ∧
    Writes .free (.statements p.program.statements) Source.sample.programTokens := by
  obtain ⟨p, hp, -, hwrites⟩ :=
    Source.sample.parse_accepts {} (by decide) (by decide) (by decide +kernel)
  have hnone : p.problems = #[] := by
    have hrun : Source.sample.parse.toOption.map (·.problems) = some #[] := by decide +kernel
    rw [hp] at hrun
    exact Option.some.inj hrun
  exact ⟨p, hp, hnone, (hwrites hnone).2⟩

end Ember

import Ember.Proofs.Grammar.Program
import Ember.Proofs.Parse.Twins

/-!
# Statements behind a semicolon

A semicolon ends a statement for good: what ends in one is read in the same way whatever
follows (`Reads.behind_semicolon`). So tokens that are read as statements may be put behind
others that are, if those end in a semicolon (`Reads.statements_append`).
-/

namespace Ember

open Ember.Parser

variable {r : Reading} {ts us : List Token} {k k' : Kind} {n : Node} {ns ms : List Node}

/-- The last token is no semicolon. -/
def Unterminated (ts : List Token) : Prop :=
  ∀ t ∈ ts.getLast?, t.kind ≠ .semicolon

theorem unterminated_singleton {t : Token} : Unterminated [t] ↔ t.kind ≠ .semicolon := by
  simp [Unterminated]

theorem Unterminated.behind (ts : List Token) (hne : us ≠ []) (hus : Unterminated us) :
    Unterminated (ts ++ us) := by
  rwa [Unterminated, List.getLast?_append_of_ne_nil _ hne]

theorem Unterminated.cons (t : Token) (hne : us ≠ []) (hus : Unterminated us) :
    Unterminated (t :: us) :=
  hus.behind [t] hne

theorem Unterminated.append (hts : Unterminated ts) (hus : Unterminated us) :
    Unterminated (ts ++ us) := by
  by_cases hne : us = []
  · rwa [hne, List.append_nil]
  · exact hus.behind ts hne

/-- Only statements end in a semicolon. -/
def Reading.Unterminated (ts : List Token) : Reading → Prop
  | .statement _ | .statements _ => True
  | _ => Ember.Unterminated ts

theorem Reads.unterminated (h : Reads r ts k) : r.Unterminated ts := by
  have hclose : ∀ {t : Token} {k : Kind}, t.kind = k → k ≠ .semicolon → Unterminated [t] := by
    rintro t k rfl hk
    exact unterminated_singleton.2 hk
  induction h with
  | identifier ht => exact hclose ht (by decide)
  | integer ht _ => exact hclose ht (by decide)
  | signed _ h ih => exact .cons _ (h.ne_nil trivial) ih
  | grouped _ _ hc => exact .cons _ (by simp) (.behind _ (by simp) (hclose hc (by decide)))
  | choice _ ih => exact ih
  | function _ _ _ h ih =>
    have hne := h.ne_nil trivial
    exact .cons _ (by simp) (.cons _ (by simp [hne]) (.behind _ hne ih))
  | expression _ _ ih₁ ih₂ => exact ih₁.append ih₂
  | stop => exact fun t ht => by cases ht
  | infixed _ _ h _ ih₁ ih₂ => exact .cons _ (by simp [h.ne_nil trivial]) (ih₁.append ih₂)
  | call _ _ h _ ih₁ ih₂ => exact .cons _ (by simp [h.ne_nil trivial]) (ih₁.append ih₂)
  | noArguments hc => exact hclose hc (by decide)
  | arguments _ _ ih₁ ih₂ => exact ih₁.append ih₂
  | lastArgument hc => exact hclose hc (by decide)
  | nextArgument _ h _ ih₁ ih₂ => exact .cons _ (by simp [h.ne_nil trivial]) (ih₁.append ih₂)
  | ifOnly _ _ _ _ h _ _ ih =>
    exact .cons _ (by simp) <| .cons _ (by simp) <| .behind _ (by simp) <|
      .cons _ (h.ne_nil trivial) ih
  | ifElse _ _ _ _ _ _ h _ _ ih =>
    exact .cons _ (by simp) <| .cons _ (by simp) <| .behind _ (by simp) <| .cons _ (by simp) <|
      .behind _ (by simp) <| .cons _ (h.ne_nil trivial) ih
  | elseIf _ _ _ _ _ _ h _ _ ih =>
    exact .cons _ (by simp) <| .cons _ (by simp) <| .behind _ (by simp) <| .cons _ (by simp) <|
      .behind _ (by simp) <| .cons _ (h.ne_nil trivial) ih
  | block _ _ hc => exact .cons _ (by simp) (.behind _ (by simp) (hclose hc (by decide)))
  | declaration _ _ _ h ih =>
    exact .cons _ (by simp) (.cons _ (by simp) (.cons _ (h.ne_nil trivial) ih))
  | assignment _ _ h ih => exact .cons _ (by simp) (.cons _ (h.ne_nil trivial) ih)
  | _ => trivial

/-- **What ends in a semicolon is read in the same way whatever follows.** -/
theorem Reads.statement_refollow (h : Reads (.statement n) ts k) (hts : ¬ Unterminated ts)
    (k' : Kind) : Reads (.statement n) ts k' := by
  cases h with
  | @binding ts us _ _ h hu =>
    cases hu with
    | semicolon ht => exact .binding h (.semicolon ht)
    | omitted =>
      rw [List.append_nil] at hts
      exact absurd h.unterminated hts
  | @expressionStatement ts us _ _ _ h hu hi =>
    cases hu with
    | @semicolon t _ ht =>
      refine .expressionStatement h (.semicolon ht) ?_
      obtain ⟨u, vs, rfl, -⟩ := h.first trivial
      rw [List.cons_append, List.tail_cons, firstKind_append] at hi ⊢
      exact hi
    | omitted =>
      rw [List.append_nil] at hts
      exact absurd h.unterminated hts
  | whileLoop _ _ _ _ h =>
    refine absurd ?_ hts
    exact .cons _ (by simp) <| .cons _ (by simp) <| .behind _ (by simp) <|
      .cons _ (h.ne_nil trivial) h.unterminated
  | forLoop _ _ _ _ _ _ _ _ h =>
    refine absurd ?_ hts
    exact .cons _ (by simp) <| .cons _ (by simp) <| .behind _ (by simp) <| .cons _ (by simp) <|
      .behind _ (by simp) <| .cons _ (by simp) <| .behind _ (by simp) <|
      .cons _ (h.ne_nil trivial) h.unterminated

theorem Reads.statements_ne_nil (h : Reads (.statements (n :: ns)) ts k) : ts ≠ [] := by
  cases h with
  | statements h₁ _ => exact fun hnil => h₁.ne_nil trivial (List.append_eq_nil_iff.1 hnil).1

theorem Reads.statements_refollow (h : Reads (.statements ns) ts k) (hts : ¬ Unterminated ts)
    (k' : Kind) : Reads (.statements ns) ts k' := by
  induction ns generalizing ts with
  | nil =>
    cases h
    exact .noStatements
  | cons n ns ih =>
    cases h with
    | @statements ts us _ _ _ h₁ h₂ =>
      cases ns with
      | nil =>
        cases h₂
        rw [List.append_nil] at hts
        exact .statements (h₁.statement_refollow hts k') .noStatements
      | cons m ms =>
        have hne := h₂.statements_ne_nil
        refine .statements ?_ (ih h₂ fun hus => hts (hus.behind ts hne))
        obtain ⟨u, vs, rfl⟩ := List.exists_cons_of_ne_nil hne
        exact h₁

/-- Statements in front of others. -/
theorem Reads.statements_append (h₁ : Reads (.statements ns) ts (firstKind us k))
    (h₂ : Reads (.statements ms) us k) : Reads (.statements (ns ++ ms)) (ts ++ us) k := by
  induction ns generalizing ts with
  | nil =>
    cases h₁
    exact h₂
  | cons n ns ih =>
    cases h₁ with
    | @statements ts vs _ _ _ h h' =>
      rw [List.append_assoc, List.cons_append]
      exact .statements (by rwa [firstKind_append]) (ih h')

/-- The end of a text. -/
def endToken : Token :=
  { kind := .endOfText, text := "", span := ⟨.start none, .start none⟩ }

theorem ofTokens_end (ts : List Token) :
    (Window.ofTokens (ts ++ [endToken])).tokens = ts ++ [endToken] :=
  ofTokens_tokens_of_ne_nil (by simp)

theorem ofTokens_end_ended (ts : List Token) : (Window.ofTokens (ts ++ [endToken])).Ended :=
  ⟨endToken, by rw [ofTokens_end]; exact List.suffix_append _ _, rfl⟩

/-- Tokens that are read as statements are parsed to them, with levels enough. -/
theorem Reads.parses (h : Reads (.statements ns) ts .endOfText) :
    ∃ all w, parseStatements 1 (4 * ts.length + 2) #[] (ts.length + 1)
        (Window.ofTokens (ts ++ [endToken])) = .ok (all, .complete, w) ∧
      all.toList.map Node.erase = ns.map Node.erase ∧ w.problems = #[] := by
  obtain ⟨all, w, hrun, hall, -, hp⟩ := @parseStatements_of_reads 1 (4 * ts.length + 2)
    (ts.length + 1) #[] (Window.ofTokens (ts ++ [endToken])) ns ts .endOfText endToken h rfl
    (Nat.le_refl _) (Nat.lt_succ_self _) (by rw [Source.ofTokens_problems]; decide) rfl
    (ofTokens_end ts)
  exact ⟨all, w, hrun, hall, by rw [hp, Source.ofTokens_problems]⟩

/-- Tokens that are parsed without a problem are read as the statements that were found. -/
theorem reads_of_parse {depth m : Nat} {all : Array Node} {ending : ParseEnd} {w : Window}
    (hrun : parseStatements 1 depth #[] m (Window.ofTokens (ts ++ [endToken])) =
      .ok (all, ending, w))
    (hp : w.problems = #[]) (hm : ts.length < m) (hnot : ∀ t ∈ ts, t.kind ≠ .endOfText) :
    Reads (.statements all.toList) ts .endOfText := by
  have hahead : (Window.ofTokens (ts ++ [endToken])).ahead.length < m := by
    have hcount := congrArg List.length (ofTokens_end ts)
    rw [Window.tokens, List.length_cons, List.length_append, List.length_singleton] at hcount
    omega
  obtain ⟨-, hend, ns, us, hns, hus, hreads⟩ := parseStatements_reads (ofTokens_end_ended ts) hahead
    (by rw [Source.ofTokens_problems]; decide) hrun (by rw [hp, Source.ofTokens_problems])
  rw [ofTokens_end] at hus
  obtain rfl := Source.eq_of_append_eq hus hend hnot
  rwa [show all.toList = ns from hns]

/-- Tokens that are read as statements are read so wherever they stand. -/
theorem Reads.of_bare {ts' : List Token} (h : Reads (.statements ns) ts .endOfText)
    (hts : ts.map Token.bare = ts'.map Token.bare) :
    ∃ ns', ns.map Node.erase = ns'.map Node.erase ∧ Reads (.statements ns') ts' .endOfText := by
  have hbare : (ts ++ [endToken]).map Token.bare = (ts' ++ [endToken]).map Token.bare := by
    rw [List.map_append, List.map_append, hts]
  have hlen : ts.length = ts'.length := by simpa using congrArg List.length hts
  have hnot : ∀ t ∈ ts', t.kind ≠ .endOfText := by
    intro t ht
    obtain ⟨u, hu, hb⟩ := List.mem_map.1 (hts ▸ List.mem_map_of_mem ht)
    rw [← Token.kind_of_bare hb]
    exact h.not_end trivial u hu
  -- the tokens are parsed at both places, in the same way
  obtain ⟨all, w, hrun, hall, hp⟩ := h.parses
  have htwins := parseStatements_twins 1 (4 * ts.length + 2) .nil (Window.ofTokens_alike hbare)
    (ofTokens_end_ended ts) (ts.length + 1)
  rw [hrun] at htwins
  generalize hrun' : parseStatements 1 (4 * ts.length + 2) #[] (ts.length + 1)
    (Window.ofTokens (ts' ++ [endToken])) = r at htwins
  cases htwins with
  | @ok _ all' _ e _ w' htrees _ hcauses =>
    have hp' : w'.problems = #[] := by
      rw [Window.causes, hp, eq_comm] at hcauses
      exact Array.toList_inj.1 (List.map_eq_nil_iff.1 hcauses)
    refine ⟨all'.toList, ?_, reads_of_parse hrun' hp' (by omega) hnot⟩
    rw [← Node.forall₂_alike_nowhere.1 htrees, hall]

end Ember

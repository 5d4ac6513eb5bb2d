import Ember.Proofs.Grammar.Breaks
import Ember.Proofs.Grammar.Program
import Ember.Proofs.Token.Places

/-!
# The first problem of a source

The first problem that a parse reports is found at the token with which the tokens of the
source stop being the start of a program (`Source.first_problem`): those before it can be
gone on with to a program, and no program starts with those up to it.
-/

namespace Ember

open Ember.Parser

variable {limit : Int} {depth m : Nat} {found all : Array Node} {w w' : Window}
  {ending : ParseEnd} {p : Problem} {ts us : List Token} {t : Token}

/-! ## Programs as tokens -/

/-- The end of the text is the last token and none of the others. -/
def EndsOnce (ts : List Token) : Prop :=
  ∃ us last, ts = us ++ [last] ∧ last.kind = .endOfText ∧ ∀ t ∈ us, t.kind ≠ .endOfText

/-- The tokens end where a text does, and a parse with these limits finds no problem in
them. -/
def Accepted (limit : Int) (depth : Nat) (ts : List Token) : Prop :=
  EndsOnce ts ∧ ∃ parsed, parseTokens limit depth ts = .ok parsed ∧ parsed.problems = #[]

/-- The end of the text stands ahead, and nothing else. -/
def AtEnd : Expected :=
  fun ts => ∃ last, ts = [last] ∧ last.kind = .endOfText

theorem AtEnd.firstKind (h : AtEnd ts) (k : Kind) : Ember.firstKind ts k = .endOfText := by
  obtain ⟨last, rfl, hlast⟩ := h
  exact hlast

theorem endable_atEnd : Endable AtEnd :=
  ⟨[Kind.endOfText.token], ⟨_, rfl, rfl⟩, (by decide : Kind.endOfText.Closes), by decide⟩

/-- Statements up to the end of the text are accepted by every parse with levels enough. -/
theorem accepted_of_statements (h : Has .statements AtEnd ts) (hl : 1 ≤ limit)
    (hd : 4 * ts.length ≤ depth) : Accepted limit depth ts := by
  obtain ⟨ns, us, ⟨vs, rfl, hr⟩, last, rfl, hlast⟩ := h
  rw [firstKind_cons] at hr
  rw [List.length_append, List.length_singleton] at hd
  refine ⟨⟨vs, last, rfl, hlast, hr.not_end trivial⟩, ?_⟩
  have hne := List.append_ne_nil_of_right_ne_nil vs (List.cons_ne_nil last [])
  have hnone := Source.ofTokens_problems (vs ++ [last])
  have hlimit : (Window.ofTokens (vs ++ [last])).problems.size < limit := by
    rw [hnone]
    exact hl
  have hm : vs.length < (vs ++ [last]).length + 1 := by
    rw [List.length_append]
    omega
  obtain ⟨all, w', hrun, -, -, hp⟩ := @parseStatements_of_reads limit depth _ #[]
    (Window.ofTokens (vs ++ [last])) ns vs _ last hr hlast (by omega) hm hlimit rfl
    (ofTokens_tokens_of_ne_nil hne)
  unfold parseTokens
  simp only [bind, Except.bind, hrun, pure, Except.pure]
  exact ⟨_, rfl, hp.trans hnone⟩

/-- What a parse accepts is read as statements up to the end of the text. -/
theorem Accepted.statements (h : Accepted limit depth ts) (hl : 1 ≤ limit) :
    Has .statements AtEnd ts := by
  obtain ⟨⟨us, last, rfl, hlast, hus⟩, parsed, hparse, hproblems⟩ := h
  obtain ⟨all, w', hrun, hp, -⟩ := parseTokens_run hparse
  have hne := List.append_ne_nil_of_right_ne_nil us (List.cons_ne_nil last [])
  have hw := ofTokens_tokens_of_ne_nil hne
  have hended : (Window.ofTokens (us ++ [last])).Ended :=
    ⟨last, by rw [hw]; exact List.suffix_append _ _, hlast⟩
  have hm : (Window.ofTokens (us ++ [last])).ahead.length < (us ++ [last]).length + 1 := by
    have hlen := congrArg List.length hw
    rw [Window.tokens, List.length_cons] at hlen
    omega
  have hnone := Source.ofTokens_problems (us ++ [last])
  obtain ⟨-, hk, ns, ts, -, ht, hr⟩ := parseStatements_reads hended hm
    (by rw [hnone]; exact hl) hrun (by rw [hnone, ← hp, hproblems])
  rw [hw] at ht
  have hts : ts = us := Source.eq_of_append_eq ht hk hus
  subst hts
  exact ⟨ns, [last], ⟨ts, rfl, by rwa [firstKind_cons, hlast]⟩, last, rfl, hlast⟩

/-! ## Statements up to the end -/

/-- A statement notes the problem, or it is clean and stands in front of others that do. -/
theorem broken_round {statement : Node} {rest : List Problem} (hw : w.Ended)
    (hk : w.current.kind ≠ .endOfText) (hs : parsePhrase depth .statement w = .ok statement w')
    (hrun : w'.problems.toList <+: w.problems.toList ++ p :: rest)
    (hmore : w'.problems = w.problems → Broken (Has .statements AtEnd) w'.advance.tokens p) :
    Broken (Has .statements AtEnd) w.tokens p := by
  have hrest := endable_atEnd.statements
  refine broken_statements (.inr rfl) (fun us hus => hus.firstKind _) hk ?_
  rcases clean_or_notes hs hrun with hc | hn
  · obtain ⟨hw', ts, ht, hr⟩ := (parsePhrase_sound depth).statement hw hc
    have hbroken := hmore hc.2
    rw [← (Window.tokens_advance (hr.ahead_ne_nil trivial hw ht)).1] at hbroken
    exact hbroken.behind ⟨ts, ht, hr⟩ trivial Leaves.statement_unique hrest
  · exact parsePhrase_breaks depth .statement w p _ hw trivial hrest hn

/-- **The statements of a program note their first problem where they break.** -/
theorem parseStatements_breaks {rest : List Problem} (hw : w.Ended)
    (h : parseStatements limit depth found m w = .ok (all, ending, w'))
    (hend : ∀ place, ending ≠ .tooDeep place)
    (hp : w'.problems.toList = w.problems.toList ++ p :: rest) :
    Broken (Has .statements AtEnd) w.tokens p := by
  have hnew : w'.problems ≠ w.problems := fun he => by
    rw [he] at hp
    simpa using congrArg List.length hp
  induction m generalizing found w with
  | zero =>
    cases h
    exact absurd rfl hnew
  | succ m ih =>
    have hround := parseStatements_round limit depth found m w
    rw [h] at hround
    cases hround with
    | complete _ hr =>
      cases hr
      exact absurd rfl hnew
    | refused _ _ hr => cases hr
    | tooDeep _ _ hr =>
      cases hr
      exact absurd rfl (hend _)
    | problemLimit hk hs _ hr =>
      cases hr
      have hrun : w'.problems.toList <+: w.problems.toList ++ p :: rest := hp ▸ List.prefix_rfl
      exact broken_round hw hk hs hrun fun hsame => absurd hsame hnew
    | @next _ w₁ hk hs _ hr =>
      -- later rounds only add problems, so those of this one come first
      have hrun := parseStatements_problems hr
      rw [Window.advance_problems, hp] at hrun
      refine broken_round hw hk hs hrun fun hsame => ?_
      have hw₁ := (hw.of_suffix (leads_of_ok hs).tokens).advance
      have hp₁ : w₁.advance.problems = w.problems := by rw [Window.advance_problems, hsame]
      exact ih hw₁ hr (hp₁ ▸ hp) (hp₁ ▸ hnew)

/-! ## Sources -/

/-- The tokens before the one at `j` can be gone on with to a program, and no program starts
with those up to it. -/
def BreaksAt (ts : List Token) (j : Nat) : Prop :=
  (∃ us levels, ∀ limit depth, 1 ≤ limit → levels ≤ depth →
      Accepted limit depth (ts.take j ++ us)) ∧
    ∀ us limit depth, 1 ≤ limit → ¬ Accepted limit depth (ts.take (j + 1) ++ us)

theorem breaksAt_of_broken {ps vs : List Token} (halive : Has .statements AtEnd (ps ++ us))
    (hdead : ∀ vs, ¬ Has .statements AtEnd (ps ++ t :: vs)) :
    BreaksAt (ps ++ t :: vs) ps.length := by
  constructor
  · refine ⟨us, 4 * (ps ++ us).length, fun limit depth hl hd => ?_⟩
    rw [List.take_left]
    exact accepted_of_statements halive hl hd
  · intro xs limit depth hl h
    rw [List.take_length_add_append, List.take_succ_cons, List.take_zero, List.append_assoc] at h
    exact hdead xs (h.statements hl)

theorem Parsed.problems_of_diagnostics {s : Source} {parsed : Parsed} {first : Diagnostic}
    (h : (parsed.diagnostics s).head? = some first) :
    ∃ p rest, parsed.problems.toList = p :: rest ∧ p.diagnostic s = first := by
  unfold diagnostics at h
  cases hlist : parsed.problems.toList with
  | nil =>
    rw [hlist] at h
    cases h
  | cons p rest =>
    rw [hlist] at h
    exact ⟨p, rest, rfl, Option.some.inj h⟩

/-- **The first problem is found at the first wrong token.** -/
theorem Source.first_problem {s : Source} {limits : Limits} {parsed : Parsed} {first : Diagnostic}
    (h : s.parse limits = .ok parsed) (hend : ∀ place, parsed.ending ≠ .tooDeep place)
    (hfirst : (parsed.diagnostics s).head? = some first) :
    ∃ (k : Nat) (t : Token), s.tokens[k]? = some t ∧ first.span = some t.span ∧
      (∀ (k' : Nat) (t' : Token), s.tokens[k']? = some t' → first.span = some t'.span → k' = k) ∧
      BreaksAt s.tokens (if first.code = "E105" ∧ t.kind = .identifier then k + 1 else k) := by
  obtain ⟨depth, all, w', -, hrun, hproblems, -⟩ := parse_run h
  obtain ⟨p, rest, hp, rfl⟩ := Parsed.problems_of_diagnostics hfirst
  have hnew : w'.problems.toList = (Window.ofTokens s.tokens).problems.toList ++ p :: rest := by
    rw [ofTokens_problems, ← hproblems, hp]
    rfl
  have hbroken := parseStatements_breaks s.ofTokens_ended hrun hend hnew
  rw [ofTokens_tokens] at hbroken
  obtain ⟨ps, t, vs, us, htokens, hblames, halive, hdead⟩ := hbroken
  have hspan : (p.diagnostic s).span = some p.span := rfl
  have hcode : (p.diagnostic s).code = p.cause.code := rfl
  have hbreaks : BreaksAt s.tokens ps.length := htokens ▸ breaksAt_of_broken halive hdead
  have hplace : ∀ {k : Nat} {t : Token}, s.tokens[k]? = some t → p.span = t.span →
      ∀ (k' : Nat) (t' : Token), s.tokens[k']? = some t' → some p.span = some t'.span → k' = k :=
    fun hk ht k' t' hk' ht' => tokens_place hk hk' ((Option.some.inj ht').symm.trans ht)
  rw [hspan, hcode]
  -- the wrong token is the one that the problem is found at, or the one behind the name there
  rcases hblames with ⟨ht, hname⟩ | ⟨he, qs, u, rfl, hu, hpu⟩
  · have hk : s.tokens[ps.length]? = some t := by rw [htokens]; simp
    refine ⟨ps.length, t, hk, congrArg some ht, hplace hk ht, ?_⟩
    rwa [if_neg hname]
  · have hk : s.tokens[qs.length]? = some u := by rw [htokens]; simp
    refine ⟨qs.length, u, hk, congrArg some hpu, hplace hk hpu, ?_⟩
    rw [if_pos ⟨he, hu⟩]
    rwa [List.length_append] at hbreaks

/-- A clause that only names something is wrong where it goes on. -/
theorem first_problem_clause :
    ∃ parsed first, ({ text := "for (x; 1" } : Source).parse = .ok parsed ∧
      (parsed.diagnostics { text := "for (x; 1" }).head? = some first ∧
      first.code = "E105" ∧ BreaksAt ({ text := "for (x; 1" } : Source).tokens 3 := by
  have hrun : (({ text := "for (x; 1" } : Source).parse.toOption.any fun parsed =>
      parsed.ending == .complete &&
        (parsed.diagnostics { text := "for (x; 1" }).head?.any fun first =>
          first.code == "E105" && ({ text := "for (x; 1" } : Source).tokens[2]?.any fun t =>
            first.span == some t.span && t.kind == .identifier) = true := by
    decide +kernel
  cases hparse : ({ text := "for (x; 1" } : Source).parse with
  | error fault =>
    rw [hparse] at hrun
    cases hrun
  | ok parsed =>
    simp only [hparse, Except.toOption, Option.any_some, Bool.and_eq_true, beq_iff_eq,
      Option.any_eq_true] at hrun
    obtain ⟨hend, first, hfirst, hcode, u, hu, hspan, hkind⟩ := hrun
    obtain ⟨k, t, hk, -, hplace, hbreaks⟩ :=
      Source.first_problem hparse (by simp [hend]) hfirst
    obtain rfl : 2 = k := hplace 2 u hu hspan
    obtain rfl : u = t := Option.some.inj (hu.symm.trans hk)
    rw [if_pos ⟨hcode, hkind⟩] at hbreaks
    exact ⟨parsed, first, rfl, hfirst, hcode, hbreaks⟩

end Ember

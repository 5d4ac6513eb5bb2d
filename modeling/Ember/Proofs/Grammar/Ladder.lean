import Ember.Proofs.Grammar.Decided
import Ember.Proofs.Parse.Stretch

/-!
# Ladders of conditionals

A ladder asks one condition after the other and takes the block of the first that holds. It may be
written with `else if`, or with braces around what stands behind every `else` but the last; both
writings are read as the same tree (`Ladder.reads`), and operators and calls behind them go on from
the whole of it (`Ladder.goesOn`).
-/

namespace Ember

open Ember.Parser

variable {arms : List (Node × Node)} {condition consequence last n : Node}
  {ts us : List Token} {k k' : Kind}

/-- A condition in parentheses behind its word, and the block that it decides about. -/
inductive Arm : Node → Node → List Token → Prop
  | mk {i o c : Token} {ts us : List Token} {condition consequence : Node} :
      i.kind = .ifWord → o.kind = .leftParen → Reads (.expression lowest condition) ts .rightParen →
      c.kind = .rightParen → Reads (.block consequence) us .elseWord →
      Arm condition consequence (i :: o :: (ts ++ c :: us))

/-- The ladder of the arms, each a condition with its block, and of the last block, which may be
missing. The first tokens write it with `else if`, the second ones with braces. -/
inductive Ladder : List (Node × Node) → Node → List Token → List Token → Prop
  | arm {condition consequence : Node} {ts : List Token} : Arm condition consequence ts →
      Ladder [(condition, consequence)] .missing ts ts
  | final {condition consequence last : Node} {e : Token} {ts us : List Token} :
      Arm condition consequence ts → e.kind = .elseWord → Reads (.block last) us .elseWord →
      Ladder [(condition, consequence)] last (ts ++ e :: us) (ts ++ e :: us)
  | next {condition consequence last : Node} {arms : List (Node × Node)} {e l r : Token}
      {ts us vs : List Token} : Arm condition consequence ts → e.kind = .elseWord →
      l.kind = .leftBrace → r.kind = .rightBrace → Ladder arms last us vs →
      Ladder ((condition, consequence) :: arms) last (ts ++ e :: us) (ts ++ e :: l :: (vs ++ [r]))

/-- The tree of a ladder: the arms behind the first are the only statement of its other block. -/
inductive LadderTree (last : Node) : List (Node × Node) → Node → Prop
  | arm {span : Option Span} {condition consequence : Node} :
      LadderTree last [(condition, consequence)] (.conditional span condition consequence last)
  | next {span span₁ span₂ : Option Span} {condition consequence n : Node}
      {arms : List (Node × Node)} : LadderTree last arms n →
      LadderTree last ((condition, consequence) :: arms)
        (.conditional span condition consequence (.block span₁ [.expression span₂ n]))

/-! ## Both writings are read alike -/

/-- What follows a block does not matter. -/
theorem Reads.block_refollow (h : Reads (.block n) ts k) : Reads (.block n) ts k' := by
  cases h with
  | block ho h hc => exact .block ho h hc

/-- A conditional in braces is a block. -/
theorem Reads.braced {l r : Token} {span₁ span₂ : Option Span} (hl : l.kind = .leftBrace)
    (hr : r.kind = .rightBrace) (h : Reads (.conditional n) ts .rightBrace) :
    Reads (.block (.block span₁ [.expression span₂ n])) (l :: (ts ++ [r])) k := by
  obtain ⟨t, rest, rfl, ht⟩ := h.starts_if
  have hexpression : Reads (.expression lowest n) (t :: rest) .rightBrace := by
    have hstop : Reads (.operators lowest n n) [] .rightBrace := .stop (by decide)
    simpa only [List.append_nil] using Reads.expression (.choice h) hstop
  have hstatement : Reads (.statement (.expression span₂ n)) (t :: rest) .rightBrace := by
    have hassign : firstKind (t :: rest) .rightBrace = .identifier →
        firstKind (t :: rest ++ []).tail .rightBrace ≠ .assign := by
      intro hk
      rw [firstKind_cons, ht] at hk
      cases hk
    have hnone : Terminator [] .rightBrace := .omitted nofun
    simpa only [List.append_nil] using Reads.expressionStatement hexpression hnone hassign
  have hstatements : Reads (.statements [.expression span₂ n]) (t :: rest) .rightBrace := by
    simpa only [List.append_nil] using Reads.statements hstatement .noStatements
  exact .block hl hstatements hr

namespace Ladder

/-- **Both writings of a ladder are read as its tree.** Without a last block it may not be followed
by another `else`. -/
theorem reads (h : Ladder arms last ts us) (hn : LadderTree last arms n)
    (hk : last.isMissing = true → k ≠ .elseWord) :
    Reads (.conditional n) ts k ∧ Reads (.conditional n) us k := by
  induction h generalizing n k with
  | arm harm =>
    obtain ⟨hi, ho, hc, hcl, hb⟩ := harm
    cases hn with
    | arm => exact and_self_iff.2 (.ifOnly hi ho hc hcl hb.block_refollow (hk rfl))
    | next hn => cases hn
  | final harm he hd =>
    obtain ⟨hi, ho, hc, hcl, hb⟩ := harm
    cases hn with
    | arm =>
      refine and_self_iff.2 ?_
      rw [List.cons_append, List.cons_append, List.append_assoc, List.cons_append]
      exact .ifElse hi ho hc hcl hb he hd.block_refollow
    | next hn => cases hn
  | next harm he hl hr hrest ih =>
    obtain ⟨hi, ho, hc, hcl, hb⟩ := harm
    cases hn with
    | arm => cases hrest
    | next hn =>
      have hnested := (ih hn hk).1
      have hbraced := (ih hn fun _ => (nofun : Kind.rightBrace ≠ .elseWord)).2
      simp only [List.cons_append, List.append_assoc]
      exact ⟨.elseIf hi ho hc hcl hb he hnested,
        .ifElse hi ho hc hcl hb he (hbraced.braced hl hr)⟩

/-- **Operators and calls behind a ladder go on from the whole of it**, in either writing. -/
theorem goesOn {above : Nat} {ops : List Token} {m : Node} (h : Ladder arms last ts us)
    (hn : LadderTree last arms n) (hops : Reads (.operators above n m) ops k)
    (hk : last.isMissing = true → firstKind ops k ≠ .elseWord) :
    Reads (.expression above m) (ts ++ ops) k ∧ Reads (.expression above m) (us ++ ops) k := by
  obtain ⟨hts, hus⟩ := h.reads hn hk
  exact ⟨.expression (.choice hts) hops, .expression (.choice hus) hops⟩

/-- Every ladder has a tree. -/
theorem exists_tree (h : Ladder arms last ts us) : ∃ n, LadderTree last arms n := by
  induction h with
  | arm => exact ⟨.conditional none _ _ _, .arm⟩
  | final => exact ⟨.conditional none _ _ _, .arm⟩
  | next _ _ _ _ _ ih =>
    obtain ⟨n, hn⟩ := ih
    exact ⟨.conditional none _ _ (.block none [.expression none n]), .next hn⟩

/-- With one arm there is nothing to put in braces. -/
theorem eq_of_length (h : Ladder arms last ts us) (harms : arms.length < 2) : ts = us := by
  cases h with
  | arm => rfl
  | final => rfl
  | next _ _ _ _ hrest =>
    cases hrest <;> · rw [List.length_cons, List.length_cons] at harms; omega

end Ladder

/-! ## First and last tokens -/

theorem Reads.block_closes (h : Reads (.block n) ts k) :
    ∃ q c, ts = q ++ [c] ∧ c.kind = .rightBrace := by
  cases h with
  | @block o c ts _ _ _ ho _ hc => exact ⟨o :: ts, c, rfl, hc⟩

theorem Arm.starts (h : Arm condition consequence ts) :
    ∃ i o rest, ts = i :: o :: rest ∧ i.kind = .ifWord := by
  obtain ⟨hi, -⟩ := h
  exact ⟨_, _, _, rfl, hi⟩

theorem Arm.closes (h : Arm condition consequence ts) :
    ∃ q c, ts = q ++ [c] ∧ c.kind = .rightBrace := by
  cases h with
  | @mk i o p ts us _ _ _ _ _ _ hb =>
    obtain ⟨q, c, rfl, hc⟩ := hb.block_closes
    exact ⟨i :: o :: (ts ++ p :: q), c, by simp, hc⟩

namespace Ladder

theorem starts (h : Ladder arms last ts us) :
    ∃ i o rest rest', ts = i :: o :: rest ∧ us = i :: o :: rest' ∧ i.kind = .ifWord := by
  cases h with
  | arm harm =>
    obtain ⟨i, o, rest, rfl, hi⟩ := harm.starts
    exact ⟨i, o, _, _, rfl, rfl, hi⟩
  | final harm =>
    obtain ⟨i, o, rest, rfl, hi⟩ := harm.starts
    exact ⟨i, o, _, _, rfl, rfl, hi⟩
  | next harm =>
    obtain ⟨i, o, rest, rfl, hi⟩ := harm.starts
    exact ⟨i, o, _, _, rfl, rfl, hi⟩

theorem closes (h : Ladder arms last ts us) :
    (∃ q c, ts = q ++ [c] ∧ c.kind = .rightBrace) ∧
      ∃ q c, us = q ++ [c] ∧ c.kind = .rightBrace := by
  induction h with
  | arm harm => exact ⟨harm.closes, harm.closes⟩
  | @final _ _ _ e ts _ _ _ hd =>
    obtain ⟨q, c, rfl, hc⟩ := hd.block_closes
    have hcloses : ∃ q' c', ts ++ e :: (q ++ [c]) = q' ++ [c'] ∧ c'.kind = .rightBrace :=
      ⟨ts ++ e :: q, c, by simp, hc⟩
    exact ⟨hcloses, hcloses⟩
  | @next _ _ _ _ e l r ts _ vs _ _ _ hr _ ih =>
    obtain ⟨⟨q, c, rfl, hc⟩, -⟩ := ih
    exact ⟨⟨ts ++ e :: q, c, by simp, hc⟩, ts ++ e :: l :: vs, r, by simp, hr⟩

end Ladder

/-! ## Where a conditional is parsed -/

section

variable {xs ts' post post' : List Token} {w : Window} {c : Token}

theorem mem_of_suffix (h : c :: xs <:+ ts ++ post) (hlength : post.length ≤ xs.length) :
    c ∈ ts := by
  obtain ⟨front, hfront⟩ := h
  rcases List.append_eq_append_iff.1 hfront with ⟨zs, rfl, hzs⟩ | ⟨zs, rfl, hzs⟩
  · cases zs with
    | nil =>
      have hle := congrArg List.length hzs
      rw [List.length_cons, List.nil_append] at hle
      omega
    | cons z zs =>
      rw [(List.cons.inj hzs).1]
      exact List.mem_append_right _ (List.mem_cons_self ..)
  · have hle := congrArg List.length hzs
    rw [List.length_append, List.length_cons] at hle
    omega

/-- The conditional is parsed as the tree `n`, up to the last of the tokens and without a
problem. -/
def Passes (ts post : List Token) (n : Node) (x : Parser Node) (w : Window) : Prop :=
  ∃ n' w', x w = .ok n' w' ∧ n'.erase = n.erase ∧ w'.ahead = post ∧
    (∃ q, ts = q ++ [w'.current]) ∧ w'.causes = w.causes

variable (h : Reads (.conditional n) ts k) (hpost : Starts post k)
  (hts : ts.map Token.bare = ts'.map Token.bare)
  (hpost' : post.map Token.bare = post'.map Token.bare) (hw : w.tokens = ts' ++ post')
  (hended : w.Ended)

include h hpost hts hpost' hw hended

/-- What is read as a conditional is parsed so from any tokens that are the same up to places, with
levels enough. -/
theorem Reads.passes {depth : Nat} (hdepth : 4 * ts.length ≤ depth) :
    Passes ts' post' n (conditional (parsePhrase depth)) w := by
  obtain ⟨t, rest, rfl, -⟩ := h.starts_if
  let w₀ : Window := ⟨t, rest ++ post, w.problems⟩
  have halike : w₀.Alike w := by
    refine ⟨?_, rfl⟩
    rw [hw, List.map_append, ← hts, ← hpost', ← List.map_append]
    rfl
  obtain ⟨n₀, w₁, ⟨hrun₀, hproblems⟩, herase, hahead₀⟩ := h.runs depth w₀ post (by omega) rfl hpost
  have hends := Tandem.twin.agree (fun _ _ _ => .inl) (depth + 1) _ _ .conditional w₀ w
    ⟨halike, halike.symm.ended hended⟩
  rw [parsePhrase, hrun₀] at hends
  rcases hends with hexcused | hsame
  · exact hexcused.elim
  generalize hrun : conditional (parsePhrase depth) w = r at hsame
  cases hsame with
  | @ok _ n' _ w' hboth =>
    have hw' := hboth.windows.1
    have htokens : w'.tokens <:+ ts' ++ post' := hw ▸ (leads_of_ok hrun).tokens
    have hlength : w'.ahead.length = post'.length := by
      have hbare := hw'.ahead
      rw [hahead₀, hpost'] at hbare
      simpa using (congrArg List.length hbare).symm
    have hahead : w'.ahead = post' := by
      have hsuffix := (List.suffix_cons w'.current w'.ahead).trans htokens
      exact (List.suffix_of_suffix_length_le hsuffix (List.suffix_append _ _)
        (Nat.le_of_eq hlength)).eq_of_length hlength
    refine ⟨n', w', hrun, ?_, hahead, ?_, ?_⟩
    · rw [← Node.mapSpan_nowhere, ← hboth.values, Node.mapSpan_nowhere, herase]
    · obtain ⟨front, hfront⟩ := htokens
      rw [Window.tokens, hahead, ← List.singleton_append, ← List.append_assoc] at hfront
      exact ⟨front, (List.append_cancel_right hfront).symm⟩
    · rw [Window.causes, ← hw'.problems, hproblems]
      rfl

/-- **What is read as a conditional is parsed so wherever it stands**, or its levels run out
inside. -/
theorem Reads.comes (depth : Nat) :
    Passes ts' post' n (conditional (parsePhrase depth)) w ∨
      ∃ w', conditional (parsePhrase depth) w = .error .tooDeep w' ∧ w'.current ∈ ts' := by
  obtain ⟨n', w', hrun, hn', hahead, hlast, hcauses⟩ :=
    h.passes hpost hts hpost' hw hended (Nat.le_add_left (4 * ts.length) depth)
  have hlevels : depth + 1 ≤ depth + 4 * ts.length + 1 :=
    Nat.add_le_add_right (Nat.le_add_right depth (4 * ts.length)) 1
  have hconditional : Deepens (conditional (parsePhrase depth))
      (conditional (parsePhrase (depth + 4 * ts.length))) :=
    parsePhrase_deepens hlevels .conditional
  rcases hconditional.run w with heq | ⟨w₁, hrun₁, hleads⟩
  · exact .inl ⟨n', w', heq.symm.trans hrun, hn', hahead, hlast, hcauses⟩
  · refine .inr ⟨w₁, hrun₁, mem_of_suffix (hw ▸ (leads_of_error hrun₁).tokens) ?_⟩
    -- with more levels the conditional is passed, so some of it was still ahead
    have hlength := hleads.tokens.length_le
    rw [hrun, Run.window, Window.tokens, Window.tokens, hahead, List.length_cons, List.length_cons]
      at hlength
    omega

end

namespace Ladder

variable {us' post post' : List Token}

/-- Where both writings of a ladder stand, up to places, they are stretches in which two texts
differ. -/
theorem stretch (h : Ladder arms last ts us) (hus : us.map Token.bare = us'.map Token.bare)
    (hbrace : ∀ t ∈ ts ++ us', t.kind = .rightBrace → t.text = "\x7d")
    (hpost : post.map Token.bare = post'.map Token.bare)
    (hended : ∃ t, [t] <:+ post ∧ t.kind = .endOfText) : Stretch ts us' post post' where
  starts := by
    obtain ⟨i, o, rest, rest', rfl, rfl, hi⟩ := h.starts
    obtain ⟨i', us', rfl, hi', hus⟩ := List.map_eq_cons_iff.1 hus.symm
    obtain ⟨o', us', rfl, ho', -⟩ := List.map_eq_cons_iff.1 hus
    exact ⟨i, o, rest, i', o', us', rfl, rfl, hi, hi'.symm, ho'.symm⟩
  ends := by
    rintro q c q' c' rfl rfl
    obtain ⟨⟨q₁, c₁, he₁, hc₁⟩, q₂, c₂, rfl, hc₂⟩ := h.closes
    have hc : c.kind = .rightBrace := by
      rwa [(List.append_inj' he₁ rfl).2 |> List.cons.inj |> And.left]
    have hc' : c'.kind = .rightBrace := by
      rw [List.map_append, List.map_append] at hus
      have hbare := (List.cons.inj (List.append_inj' hus rfl).2).1
      rw [← Token.kind_of_bare hbare, hc₂]
    refine Prod.ext (hc.trans hc'.symm) ?_
    rw [Token.bare, Token.bare, hbrace c (by simp) hc, hbrace c' (by simp) hc']
  behind := hpost
  ended := hended

/-- **Where the writings of a ladder stand for each other**, both are parsed as the same tree. -/
theorem meets (h : Ladder arms last ts us) (hus : us.map Token.bare = us'.map Token.bare)
    (hlast : last.isMissing = true → firstKind post .endOfText ≠ .elseWord)
    (hs : Stretch ts us' post post') (depth : Nat) :
    (Tandem.stretch hs).Meets (parsePhrase depth) (parsePhrase depth) := by
  rintro w w' (hw | ⟨_ | ⟨t, front⟩, hw⟩)
  · exact .inl (.inl hw)
  · obtain ⟨n, hn⟩ := h.exists_tree
    obtain ⟨hts, hus₀⟩ := h.reads hn hlast
    obtain ⟨front', htokens', hfront⟩ := hw.tokens'
    obtain rfl := List.map_eq_nil_iff.1 hfront.symm
    obtain ⟨hended, hended'⟩ := hs.window_ended hw
    have hpost : Starts post (firstKind post .endOfText) := by
      obtain ⟨t, hsuffix, -⟩ := hs.ended
      obtain ⟨u, rest, rfl⟩ := List.exists_cons_of_ne_nil (hsuffix.ne_nil (List.cons_ne_nil t []))
      exact ⟨u, rest, rfl, rfl⟩
    refine .inr ?_
    rcases hts.comes hpost rfl rfl hw.tokens hended depth with
      ⟨n₁, w₁, hrun, hn₁, hahead, ⟨q, hq⟩, hcauses⟩ | ⟨w₁, hrun, hmem⟩
    · rcases hus₀.comes hpost hus hs.behind htokens' hended' depth with
        ⟨n₂, w₂, hrun', hn₂, hahead', ⟨q', hq'⟩, hcauses'⟩ | ⟨w₂, hrun', hmem⟩
      · have halike : w₁.Alike w₂ := by
          refine ⟨?_, hcauses.trans (hw.causes.trans hcauses'.symm)⟩
          rw [Window.tokens, Window.tokens, hahead, hahead', List.map_cons, List.map_cons,
            hs.ends q _ q' _ hq hq', hs.behind]
        rw [hrun, hrun']
        refine .inr (.ok ⟨?_, .inl ⟨halike, hended.of_suffix (leads_of_ok hrun).tokens⟩⟩)
        rw [Node.Alike, Node.mapSpan_nowhere, Node.mapSpan_nowhere, hn₁, hn₂]
      · refine .inl (.inr (.inr ?_))
        rw [hrun']
        exact ⟨rfl, hmem⟩
    · refine .inl (.inr (.inl ?_))
      rw [hrun]
      exact ⟨rfl, hmem⟩
  · exact .inl (.inr ⟨t, front, hw⟩)

end Ladder

end Ember

import Ember.Proofs.Eval.Bounds
import Ember.Proofs.Grammar.Ladder
import Ember.Proofs.Grammar.Terminates
import Ember.Proofs.Session.Layout

/-!
# Ladders in sources and in evaluations

Two sources that are the same but for the writing of a ladder are parsed and evaluated alike,
whatever stands around it, with two exceptions: a ladder in the place of a loop's clause is a
problem, and the parse goes on inside it; and an `else` behind a ladder without a last block belongs
to the last arm in the one writing and to nothing in the other (`Source.parse_ladder`). In both
places the writings are parsed apart (`Source.ParsedApart`).

A ladder asks its conditions in order and takes one block (`LadderTree.evaluates`).
-/

namespace Ember

open Ember.Parser Heap

/-! ## Evaluation -/

/-- The block of the first arm whose condition holds, asked in order; else the last block, if there
is one. -/
def Run.choose (self : Task → FrameId → Run (Option Value)) (frame : FrameId) (last : Node) :
    List (Node × Node) → Run (Option Value)
  | [] => if last.isMissing then return none else block self frame last
  | (condition, consequence) :: arms => do
    if holds (← self (.expression condition) frame) then block self frame consequence
    else choose self frame last arms

variable {arms : List (Node × Node)} {last n : Node} {ts us us' : List Token}

/-- A block of one statement does what the statement does. -/
theorem Run.block_singleton (self : Task → FrameId → Run (Option Value)) (f : FrameId)
    (span : Option Span) (n : Node) :
    Run.block self f (.block span [n]) = self (.statement n) f :=
  bind_pure (self (.statement n) f)

/-- Unless it runs out of levels an evaluation does the same with more of them. -/
theorem evalTask_levels (rounds : Nat) {depth levels : Nat} (hlevels : depth ≤ levels)
    (task : Task) (f : FrameId) :
    Run.Extends .tooDeep (evalTask rounds depth task f) (evalTask rounds levels task f) :=
  evalTask_extends (.inl rfl) (.inr ⟨hlevels, rfl⟩) task f

/-- A conditional asks its condition, and then goes on with its block or with what its other block
comes to. Unless it runs out of levels, both do what they do with more levels. -/
theorem evalTask_conditional (rounds : Nat) {depth levels : Nat} (hlevels : depth ≤ levels)
    (span : Option Span) (condition consequence alternative : Node) (f : FrameId)
    {otherwise : Run (Option Value)} (hotherwise : ∀ inside, inside + 2 = depth →
      Run.Extends .tooDeep (if alternative.isMissing then return none else
        Run.block (evalTask rounds inside) f alternative) otherwise) :
    Run.Extends .tooDeep
      (evalTask rounds depth (.expression (.conditional span condition consequence alternative)) f)
      (do if holds (← evalTask rounds levels (.expression condition) f)
        then Run.block (evalTask rounds levels) f consequence else otherwise) := by
  rcases depth with _ | _ | inside
  · exact fun h => .inl ⟨h, rfl⟩
  · exact fun h => .inl ⟨h, rfl⟩
  have hself := evalTask_levels rounds (by omega : inside ≤ levels)
  rw [evalTask, Run.expression]
  refine (hself _ f).bind fun v => .ite (Run.extends_block hself _) ?_
  exact hotherwise inside rfl

/-- **A ladder asks its conditions in order** and evaluates the block of the first that holds, or
the last block; what is in front of that was asked and nothing behind it is. Unless the ladder runs
out of levels, each part does what it does with all of the ladder's levels. -/
theorem LadderTree.evaluates (h : LadderTree last arms n) (rounds : Nat) {depth levels : Nat}
    (hlevels : depth ≤ levels) (f : FrameId) :
    Run.Extends .tooDeep (evalTask rounds depth (.expression n) f)
      (Run.choose (evalTask rounds levels) f last arms) := by
  -- the levels that are left get fewer with every arm; `levels` stays
  induction h generalizing depth with
  | arm =>
    refine evalTask_conditional rounds hlevels _ _ _ _ f fun inside hinside => ?_
    have hself := evalTask_levels rounds (by omega : inside ≤ levels)
    exact .ite (.refl _) (Run.extends_block hself _)
  | @next _ span₁ span₂ _ _ n arms _ ih =>
    refine evalTask_conditional rounds hlevels _ _ _ _ f fun inside hinside => ?_
    have hpresent : (Node.block span₁ [.expression span₂ n]).isMissing = false := rfl
    rw [hpresent, if_neg Bool.false_ne_true, Run.block_singleton]
    -- the nested ladder stands in a statement
    rcases inside with _ | _ | inside
    · exact fun h => .inl ⟨h, rfl⟩
    · exact fun h => .inl ⟨h, rfl⟩
    · exact ih (by omega)

/-! ## Sources -/

/-- The sources are the same, up to places, but for `ts` in the first: there the second has `us` up
to places, as `us'`. Behind it stands `post` in the first. -/
def Source.Exchange (s s' : Source) (ts us us' post : List Token) : Prop :=
  ∃ pre pre' post', s.tokens = pre ++ (ts ++ post) ∧ s'.tokens = pre' ++ (us' ++ post') ∧
    pre.map Token.bare = pre'.map Token.bare ∧ us.map Token.bare = us'.map Token.bare ∧
      post.map Token.bare = post'.map Token.bare

namespace Ladder

variable {s s' : Source} {limits : Limits} {pre post : List Token}

/-- Where a ladder has to stand for both writings to be parsed alike: `ts` in the one source, `us'`
in the other, and `post` behind it. -/
structure Stands (s s' : Source) (limits : Limits) (last : Node) (ts us' post : List Token) :
    Prop where
  /-- Without a last block no `else` follows. -/
  follow : last.isMissing = true → firstKind post .endOfText ≠ .elseWord
  /-- It does not stand in the place of a loop's clause. -/
  clause : ∀ t ∈ ts.head?, ∀ p ∈ (s.survey limits).last.problems, ¬ p.WantsClause t
  /-- The nesting does not become too deep inside the ladder. -/
  levels : ∀ t ∈ ts, (s.survey limits).ending ≠ .ok (.tooDeep t.span.start)
  levels' : ∀ t ∈ us', (s'.survey limits).ending ≠ .ok (.tooDeep t.span.start)

/-- Nothing is excused where a ladder stands so. -/
theorem Stands.not_excused (h : Stands s s' limits last ts us' post) {a a' : Stage}
    (ha : (s.survey limits).Comes a) (ha' : (s'.survey limits).Comes a') :
    ¬ Excused ts us' a a' := by
  rintro (⟨t, ht, p, hp, hwants⟩ | ⟨hstop, hmem⟩ | ⟨hstop, hmem⟩)
  · have hkept := ha.problems.subset (Array.mem_toList_iff.2 hp)
    exact h.clause t ht p (Array.mem_toList_iff.1 hkept) hwants
  · exact h.levels _ hmem (ha.tooDeep hstop)
  · exact h.levels' _ hmem (ha'.tooDeep hstop)

/-- Behind a ladder the text goes on up to its end. -/
theorem ended_behind (h : Ladder arms last ts us) (hs : s.tokens = pre ++ (ts ++ post)) :
    ∃ t, [t] <:+ post ∧ t.kind = .endOfText := by
  obtain ⟨t, hsuffix, hk⟩ := s.tokens_ended
  have hpost : post ≠ [] := by
    rintro rfl
    obtain ⟨⟨q, c, rfl, hc⟩, -⟩ := h.closes
    obtain ⟨xs, hxs⟩ := hsuffix
    rw [hs, List.append_nil, ← List.append_assoc] at hxs
    rw [← (List.cons.inj (List.append_inj' hxs rfl).2).1, hk] at hc
    cases hc
  have hbehind : post <:+ s.tokens := by
    rw [hs]
    exact (List.suffix_append _ _).trans (List.suffix_append _ _)
  exact ⟨t, List.suffix_of_suffix_length_le hsuffix hbehind (List.length_pos_iff.2 hpost), hk⟩

end Ladder

namespace Source

variable {s s' : Source} {limits : Limits} {post : List Token}

/-- With rounds enough a survey is that of the source. -/
theorem survey_eq {depth n : Nat} (hd : depthBudget limits.depth = .ok depth)
    (hn : s.tokens.length < n) :
    s.survey limits = surveyStatements limits.problems depth n #[] (Window.ofTokens s.tokens) := by
  have hahead := s.ofTokens_ahead_lt
  rw [survey, hd]
  exact surveyStatements_rounds _ _ _ s.ofTokens_ended hahead (by omega)

/-- **Both writings of a ladder are parsed alike**, whatever stands around it. -/
theorem parse_ladder (h : Ladder arms last ts us) (hs : s.Exchange s' ts us us' post)
    (hstands : 2 ≤ arms.length → Ladder.Stands s s' limits last ts us' post) :
    ParsesAlike (s.parse limits) (s'.parse limits) := by
  obtain ⟨pre, pre', post', htokens, htokens', hpre, hus, hpost⟩ := hs
  rcases Nat.lt_or_ge arms.length 2 with harms | harms
  · refine parse_twins limits ?_
    rw [htokens, htokens', h.eq_of_length harms]
    simp only [List.map_append, hpre, hus, hpost]
  have hstands := hstands harms
  have hbrace : ∀ t ∈ ts ++ us', t.kind = .rightBrace → t.text = "\x7d" := by
    intro t ht hk
    have htext : t.kind.spelling? = some "\x7d" := by rw [hk]; rfl
    rcases List.mem_append.1 ht with ht | ht
    · exact tokens_spelling (s := s) (by rw [htokens]; simp [ht]) htext
    · exact tokens_spelling (s := s') (by rw [htokens']; simp [ht]) htext
  have hstretch := h.stretch hus hbrace hpost (h.ended_behind htokens)
  have hnear : (Tandem.stretch hstretch).near (Window.ofTokens s.tokens)
      (Window.ofTokens s'.tokens) := by
    refine .inr ⟨pre, ?_, ⟨pre', ?_, hpre⟩, ?_⟩
    · rw [ofTokens_tokens, htokens]
    · rw [ofTokens_tokens, htokens']
    · rw [Window.causes, Window.causes, ofTokens_problems, ofTokens_problems]
  rw [parse_eq_survey, parse_eq_survey]
  cases hd : depthBudget limits.depth with
  | error reason =>
    rw [survey, survey, hd]
    exact .fault reason
  | ok depth =>
    have hsurveys := Tandem.surveys (h.meets hus hstands.follow hstretch) limits.problems depth
      (s.tokens.length + s'.tokens.length + 1) .nil hnear
    rw [← survey_eq hd (by omega), ← survey_eq hd (by omega)] at hsurveys
    rcases hsurveys with ⟨a, a', hexcused, ha, ha'⟩ | halike
    · exact absurd hexcused (hstands.not_excused ha ha')
    · exact halike.parsed _ _

end Source

/-! ## The whole of it -/

/-- **A ladder means the same in both writings.** Both are read as its tree, and operators and calls
behind it go on from the whole tree; the tree asks the conditions in order and takes one block,
unless it runs out of levels. Two sources that are the same but for the writing of a ladder are
parsed alike and evaluated alike. -/
theorem Ladder.written_alike (h : Ladder arms last ts us) :
    (∃ n, LadderTree last arms n) ∧
    (∀ n, LadderTree last arms n →
      (∀ k, (last.isMissing = true → k ≠ .elseWord) →
        Reads (.conditional n) ts k ∧ Reads (.conditional n) us k) ∧
      (∀ above m ops k, Reads (.operators above n m) ops k →
        (last.isMissing = true → firstKind ops k ≠ .elseWord) →
        Reads (.expression above m) (ts ++ ops) k ∧ Reads (.expression above m) (us ++ ops) k) ∧
      ∀ rounds depth f, Run.Extends .tooDeep (evalTask rounds depth (.expression n) f)
        (Run.choose (evalTask rounds depth) f last arms)) ∧
    ∀ (s s' : Source) (limits : Limits) (us' post : List Token), s.Exchange s' ts us us' post →
      (2 ≤ arms.length → Ladder.Stands s s' limits last ts us' post) →
      ParsesAlike (s.parse limits) (s'.parse limits) ∧
        ∀ (heap : Heap) (f : FrameId) (rounds : Nat),
          CallsAlike (heap.evaluate f s limits rounds).1 (heap.evaluate f s' limits rounds).1 ∧
            (heap.evaluate f s limits rounds).2.Alike (heap.evaluate f s' limits rounds).2 := by
  refine ⟨h.exists_tree, fun n hn => ⟨?_, ?_, ?_⟩, ?_⟩
  · exact fun k hk => h.reads hn hk
  · exact fun above m ops k hops hk => h.goesOn hn hops hk
  · exact fun rounds depth f => hn.evaluates rounds (Nat.le_refl depth) f
  · intro s s' limits us' post hs hstands
    have hparse := Source.parse_ladder h hs hstands
    exact ⟨hparse, fun heap f => (Heap.Alike.refl heap).evaluate f hparse⟩

/-! ## Samples -/

/-- A name in parentheses behind its word, and a number in braces. -/
def sampleArm (name number : String) : List (Kind × String) :=
  [(.ifWord, "if"), (.leftParen, "("), (.identifier, name), (.rightParen, ")"),
    (.leftBrace, "\x7b"), (.integer, number), (.rightBrace, "\x7d")]

theorem Arm.sample {name number : String} (hts : ts.map Token.bare = sampleArm name number)
    (hnumber : number.length ≤ maxDigits) :
    ∃ condition consequence, Arm condition consequence ts := by
  obtain ⟨i, ts, rfl, hi, hts⟩ := List.map_eq_cons_iff.1 hts
  obtain ⟨o, ts, rfl, ho, hts⟩ := List.map_eq_cons_iff.1 hts
  obtain ⟨x, ts, rfl, hx, hts⟩ := List.map_eq_cons_iff.1 hts
  obtain ⟨c, ts, rfl, hc, hts⟩ := List.map_eq_cons_iff.1 hts
  obtain ⟨l, ts, rfl, hl, hts⟩ := List.map_eq_cons_iff.1 hts
  obtain ⟨d, ts, rfl, hd, hts⟩ := List.map_eq_cons_iff.1 hts
  obtain ⟨r, ts, rfl, hr, hts⟩ := List.map_eq_cons_iff.1 hts
  obtain rfl := List.map_eq_nil_iff.1 hts
  obtain ⟨hk, rfl⟩ : d.kind = .integer ∧ d.text = number := Prod.mk.inj hd
  have hcondition : Reads (.expression lowest (.identifier none x.text)) [x] .rightParen :=
    .expression (.identifier (congrArg Prod.fst hx)) (.stop (by decide))
  have hvalue : ∃ n, Reads (.expression lowest n) [d] .rightBrace :=
    ⟨.integer none _, .expression (.integer hk hnumber) (.stop (by decide))⟩
  obtain ⟨n, hvalue⟩ := hvalue
  have hstatement : Reads (.statement (.expression none n)) [d] .rightBrace := by
    have hassign : firstKind [d] .rightBrace = .identifier →
        firstKind ([d] ++ []).tail .rightBrace ≠ .assign := nofun
    have hnone : Terminator [] .rightBrace := .omitted nofun
    exact .expressionStatement hvalue hnone hassign
  have hstatements : Reads (.statements [.expression none n]) [d] .rightBrace :=
    .statements hstatement .noStatements
  have hblock : Reads (.block (.block none [.expression none n])) [l, d, r] .elseWord :=
    .block (congrArg Prod.fst hl) hstatements (congrArg Prod.fst hr)
  exact ⟨_, _, .mk (congrArg Prod.fst hi) (congrArg Prod.fst ho) hcondition
    (congrArg Prod.fst hc) hblock⟩

/-- Two such arms in a source, and the same source with braces around the second one. -/
theorem Source.exchange_sample {s s' : Source} {pre post : List (Kind × String)}
    {name number name' number' : String} (hnumber : number.length ≤ maxDigits)
    (hnumber' : number'.length ≤ maxDigits)
    (hs : s.tokens.map Token.bare =
      pre ++ (sampleArm name number ++ (.elseWord, "else") :: sampleArm name' number' ++ post))
    (hs' : s'.tokens.map Token.bare =
      pre ++ (sampleArm name number ++ (.elseWord, "else") :: (.leftBrace, "\x7b") ::
        (sampleArm name' number' ++ [(.rightBrace, "\x7d")]) ++ post)) :
    ∃ arms ts us us' behind, arms.length = 2 ∧ Ladder arms .missing ts us ∧
      s.Exchange s' ts us us' behind ∧ behind.map Token.bare = post := by
  obtain ⟨front, rest, htokens, hfront, hrest⟩ := List.map_eq_append_iff.1 hs
  obtain ⟨ts, behind, rfl, hts, hbehind⟩ := List.map_eq_append_iff.1 hrest
  obtain ⟨arm, rest, rfl, harm, hrest⟩ := List.map_eq_append_iff.1 hts
  obtain ⟨e, arm', rfl, he, harm'⟩ := List.map_eq_cons_iff.1 hrest
  obtain ⟨front', rest, htokens', hfront', hrest⟩ := List.map_eq_append_iff.1 hs'
  obtain ⟨us', behind', rfl, hus', hbehind'⟩ := List.map_eq_append_iff.1 hrest
  obtain ⟨condition, consequence, hfirst⟩ := Arm.sample harm hnumber
  obtain ⟨condition', consequence', hsecond⟩ := Arm.sample harm' hnumber'
  let l : Token := ⟨.leftBrace, "\x7b", default⟩
  let r : Token := ⟨.rightBrace, "\x7d", default⟩
  have hladder : Ladder [(condition, consequence), (condition', consequence')] .missing
      (arm ++ e :: arm') (arm ++ e :: l :: (arm' ++ [r])) :=
    .next hfirst (congrArg Prod.fst he) rfl rfl (.arm hsecond)
  refine ⟨_, _, _, us', behind, rfl, hladder, ⟨front, front', behind', htokens, htokens', ?_⟩,
    hbehind⟩
  refine ⟨hfront.trans hfront'.symm, ?_, hbehind.trans hbehind'.symm⟩
  rw [hus', List.map_append, List.map_cons, List.map_cons, List.map_append, harm, he, harm']
  rfl

/-- Two arms with an operator behind them. -/
def ladderSample : Source :=
  { text := "let a=1<0; let b=0<1; let x = if (a) \x7b 1 \x7d else if (b) \x7b 2 \x7d + 4" }

/-- The same with braces around the second arm. -/
def bracedSample : Source :=
  { text := "let a=1<0; let b=0<1; let x = if (a) \x7b 1 \x7d else \x7bif (b) \x7b 2 \x7d\x7d + 4" }

theorem Ladder.written_alike_sum :
    (∃ arms ts us us' post, arms.length = 2 ∧ Ladder arms .missing ts us ∧
      ladderSample.Exchange bracedSample ts us us' post ∧
      Ladder.Stands ladderSample bracedSample {} .missing ts us' post) ∧
    CallsAlike (initial.evaluate globalFrame ladderSample {} 0).1
        (initial.evaluate globalFrame bracedSample {} 0).1 ∧
      (initial.evaluate globalFrame ladderSample {} 0).2.Alike
        (initial.evaluate globalFrame bracedSample {} 0).2 ∧
      ((initial.evaluate globalFrame bracedSample {} 0).2.shown globalFrame).map
          (fun b => (b.1, b.2.toOption)) =
        [("a", some "false"), ("b", some "true"), ("x", some "6")] := by
  have hladder : ladderSample.tokens.map Token.bare =
      [(.letWord, "let"), (.identifier, "a"), (.assign, "="), (.integer, "1"), (.less, "<"),
        (.integer, "0"), (.semicolon, ";"), (.letWord, "let"), (.identifier, "b"), (.assign, "="),
        (.integer, "0"), (.less, "<"), (.integer, "1"), (.semicolon, ";"), (.letWord, "let"),
        (.identifier, "x"), (.assign, "=")] ++
      (sampleArm "a" "1" ++ (.elseWord, "else") :: sampleArm "b" "2" ++
        [(.plus, "+"), (.integer, "4"), (.endOfText, "")]) := by decide +kernel
  have hclean : ∀ s ∈ [ladderSample, bracedSample],
      (s.survey {}).ending.toOption = some .complete ∧ (s.survey {}).last.problems = #[] := by
    decide +kernel
  have hlevels : ∀ s ∈ [ladderSample, bracedSample], ∀ place,
      (s.survey {}).ending ≠ .ok (.tooDeep place) := by
    intro s hs place hdeep
    have hcomplete := (hclean s hs).1
    rw [hdeep] at hcomplete
    cases hcomplete
  obtain ⟨arms, ts, us, us', post, harms, h, hexchange, hpost⟩ :=
    Source.exchange_sample (by decide) (by decide) hladder
      (show bracedSample.tokens.map Token.bare = _ by decide +kernel)
  have hfollow : firstKind post .endOfText ≠ .elseWord := by
    obtain ⟨t, rest, rfl, ht, -⟩ := List.map_eq_cons_iff.1 hpost
    have hk : t.kind = .plus := congrArg Prod.fst ht
    rw [firstKind_cons, hk]
    exact nofun
  have hclause : ∀ p ∈ (ladderSample.survey {}).last.problems, ∀ t, ¬ p.WantsClause t := by
    rw [(hclean ladderSample (by simp)).2]
    intro p hp
    exact absurd hp (Array.not_mem_empty p)
  have hstands : Ladder.Stands ladderSample bracedSample {} .missing ts us' post :=
    ⟨fun _ => hfollow, fun t _ p hp => hclause p hp t,
      fun _ _ => hlevels ladderSample (by simp) _, fun _ _ => hlevels bracedSample (by simp) _⟩
  obtain ⟨-, hcalls⟩ := h.written_alike.2.2 _ _ {} us' post hexchange fun _ => hstands
  obtain ⟨hcall, hheap⟩ := hcalls initial globalFrame 0
  exact ⟨⟨arms, ts, us, us', post, harms, h, hexchange, hstands⟩, hcall, hheap, by decide +kernel⟩

/-- The sources are the same, up to places, but for the writing of a ladder, and are both parsed up
to their ends, but not alike. -/
def Source.ParsedApart (s s' : Source) : Prop :=
  (∃ arms last ts us us' post, Ladder arms last ts us ∧ s.Exchange s' ts us us' post) ∧
    (s.parse {}).toOption.map Parsed.ending = some .complete ∧
    (s'.parse {}).toOption.map Parsed.ending = some .complete ∧
    ¬ ParsesAlike (s.parse {}) (s'.parse {})

theorem Source.parsedApart_sample {s s' : Source} {pre post : List (Kind × String)} (n n' : Nat)
    (hs : s.tokens.map Token.bare =
      pre ++ (sampleArm "a" "1" ++ (.elseWord, "else") :: sampleArm "b" "2" ++ post))
    (hs' : s'.tokens.map Token.bare =
      pre ++ (sampleArm "a" "1" ++ (.elseWord, "else") :: (.leftBrace, "\x7b") ::
        (sampleArm "b" "2" ++ [(.rightBrace, "\x7d")]) ++ post))
    (hparse : (s.parse {}).toOption.map (fun p => (p.ending, p.problems.size)) =
      some (.complete, n))
    (hparse' : (s'.parse {}).toOption.map (fun p => (p.ending, p.problems.size)) =
      some (.complete, n'))
    (hne : n ≠ n') : s.ParsedApart s' := by
  obtain ⟨arms, ts, us, us', behind, -, h, hexchange, -⟩ :=
    exchange_sample (by decide) (by decide) hs hs'
  refine ⟨⟨arms, .missing, ts, us, us', behind, h, hexchange⟩, ?_⟩
  cases hp : s.parse {} with
  | error reason =>
    rw [hp] at hparse
    cases hparse
  | ok p =>
    cases hp' : s'.parse {} with
    | error reason =>
      rw [hp'] at hparse'
      cases hparse'
    | ok p' =>
      rw [hp] at hparse
      rw [hp'] at hparse'
      obtain ⟨hending, hsize⟩ := Prod.mk.inj (Option.some.inj hparse)
      obtain ⟨hending', hsize'⟩ := Prod.mk.inj (Option.some.inj hparse')
      refine ⟨congrArg some hending, congrArg some hending', ?_⟩
      rintro (_ | halike)
      have hcauses := congrArg List.length halike.problems
      rw [List.length_map, List.length_map, Array.length_toList, Array.length_toList, hsize,
        hsize'] at hcauses
      exact hne hcauses

/-- A ladder in the place of a loop's clause. -/
def clauseLadder : Source := { text := "for (if (a) \x7b 1 \x7d else if (b) \x7b 2 \x7d" }

/-- The same with braces around the second arm. -/
def clauseBraced : Source := { text := "for (if (a) \x7b 1 \x7d else \x7b if (b) \x7b 2 \x7d \x7d" }

/-- A ladder without a last block, and an `else`. -/
def danglingLadder : Source :=
  { text := "if (a) \x7b 1 \x7d else if (b) \x7b 2 \x7d else \x7b 3 \x7d" }

/-- The same with braces around the second arm. -/
def danglingBraced : Source :=
  { text := "if (a) \x7b 1 \x7d else \x7b if (b) \x7b 2 \x7d \x7d else \x7b 3 \x7d" }

/-- In the place of a loop's clause the parse goes on inside the ladder, and finds more problems
where there are braces. An `else` behind a ladder without a last block belongs to the last arm, but
not where that is in braces. -/
theorem Source.ladders_parsed_apart :
    clauseLadder.ParsedApart clauseBraced ∧ danglingLadder.ParsedApart danglingBraced := by
  have hclause : clauseLadder.tokens.map Token.bare =
      [(.forWord, "for"), (.leftParen, "(")] ++
      (sampleArm "a" "1" ++ (.elseWord, "else") :: sampleArm "b" "2" ++ [(.endOfText, "")]) := by
    decide +kernel
  have hdangling : danglingLadder.tokens.map Token.bare =
      [] ++ (sampleArm "a" "1" ++ (.elseWord, "else") :: sampleArm "b" "2" ++
        [(.elseWord, "else"), (.leftBrace, "\x7b"), (.integer, "3"), (.rightBrace, "\x7d"),
          (.endOfText, "")]) := by
    decide +kernel
  constructor
  · exact parsedApart_sample 4 6 hclause (by decide +kernel) (by decide +kernel)
      (by decide +kernel) (by decide)
  · exact parsedApart_sample 0 3 hdangling (by decide +kernel) (by decide +kernel)
      (by decide +kernel) (by decide)

end Ember

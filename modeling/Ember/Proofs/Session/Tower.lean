import Ember.Proofs.Grammar.Printing
import Ember.Proofs.Grammar.Rendering
import Ember.Proofs.Session.Interactive

/-!
# A function too deep to be shown

The recursion limit says how deeply a line may be nested to be parsed and evaluated. It says
nothing of how deeply a value may be nested to be shown, which is up to the stack alone. So where
the limit is some four times as high as the stack, there is a line that is evaluated to a function
and then stops the session (`Repl.deep_function_stops`): the body of the function is a name behind
more signs than the stack has room for.
-/

namespace Ember

open Text

/-! ## Trees of many levels -/

namespace Node

mutual

/-- Without its spans a tree has as many levels. -/
theorem levels_erase : ∀ n : Node, n.erase.levels = n.levels
  | missing | identifier .. | integer .. => rfl
  | unary _ _ a => by simp only [erase, levels, levels_erase a]
  | binary _ a _ b => by simp only [erase, levels, levels_erase a, levels_erase b]
  | conditional _ c a b => by
    simp only [erase, levels, levels_erase c, levels_erase a, levels_erase b]
  | function _ _ b => by simp only [erase, levels, levels_erase b]
  | call _ c as => by simp only [erase, levels, levels_erase c, levelsOfAll_eraseAll as]
  | declaration _ _ v | assignment _ _ v => by simp only [erase, levels, levels_erase v]
  | expression _ e => by simp only [erase, levels, levels_erase e]
  | block _ ns | program _ ns => by simp only [erase, levels, levelsOfAll_eraseAll ns]
  | whileLoop _ c b => by simp only [erase, levels, levels_erase c, levels_erase b]
  | forLoop _ i c p b => by
    simp only [erase, levels, levels_erase i, levels_erase c, levels_erase p, levels_erase b]

theorem levelsOfAll_eraseAll : ∀ ns : List Node, levelsOfAll (eraseAll ns) = levelsOfAll ns
  | [] => rfl
  | n :: ns => by simp only [eraseAll, levelsOfAll, levels_erase n, levelsOfAll_eraseAll ns]

end

/-- A statement that is a function up to spans is the statement of a function. -/
theorem eq_of_erase_function {n body : Node}
    (h : n.erase = .expression none (.function none [] body)) :
    ∃ span span' body', n = .expression span (.function span' [] body') ∧ body'.erase = body := by
  cases n with
  | expression span e =>
    cases e with
    | function span' names body' =>
      simp only [erase, expression.injEq, function.injEq, List.map_eq_nil_iff] at h
      obtain ⟨-, -, rfl, hbody⟩ := h
      exact ⟨span, span', body', rfl, hbody⟩
    | _ => simp [erase] at h
  | _ => simp [erase] at h

/-- A name behind signs. -/
def tower : Nat → Node
  | 0 => .identifier none "x"
  | signs + 1 => .unary none "!" (tower signs)

/-- A block with a tower in it. -/
def towerBlock (signs : Nat) : Node :=
  .block none [.expression none (tower signs)]

/-- A tower has a level for each sign and one for the name. -/
theorem levels_tower (signs : Nat) : (tower signs).levels = signs + 1 := by
  induction signs with
  | zero => rfl
  | succ signs ih => rw [tower, levels, ih]

/-- The block and its statement add two levels. -/
theorem levels_towerBlock (signs : Nat) : (towerBlock signs).levels = signs + 3 := by
  simp only [towerBlock, levels, levelsOfAll, levels_tower, Nat.max_zero]

end Node

/-! ## Their texts -/

variable {signs : Nat}

/-- The characters of a tower. -/
def towerChars (signs : Nat) : List Char :=
  List.replicate signs '!' ++ ['x']

/-- A function without parameters and with a tower for its body, as a line. -/
def towerLine (signs : Nat) : String :=
  "function" ++ String.ofList ('(' :: ')' :: '\x7b' :: (towerChars signs ++ ['\x7d']))

/-- So many tokens, none of which is too long, are read so. -/
structure TowerTokens (r : Reading) (length : Nat) (k : Kind) (ts : List Token) : Prop where
  length_eq : ts.length = length
  readable : Readable ts
  reads : Reads r ts k

theorem toList_towerLine (signs : Nat) : (towerLine signs).toList =
    "function".toList ++ '(' :: ')' :: '\x7b' :: (towerChars signs ++ ['\x7d']) := by
  simp [towerLine]

theorem towerChars_succ (signs : Nat) : towerChars (signs + 1) = '!' :: towerChars signs :=
  rfl

/-- No equals sign stands behind a sign. -/
theorem apart_towerChars (signs : Nat) : Apart (· = '=') (towerChars signs) := by
  cases signs <;> exact fun c hc => by cases hc; rfl

/-- The text of a tower is lexed to its signs and its name, which are read as the tower. -/
theorem spells_towerChars (signs : Nat) {above : Nat} (ha : lowest ≤ above) :
    Spells isWordChar (towerChars signs)
      (TowerTokens (.expression above (Node.tower signs)) (signs + 1) .rightBrace) := by
  induction signs generalizing above with
  | zero =>
    have hword : IsWord ['x'] := by
      refine ⟨nofun, ?_, ?_, ?_, nofun⟩ <;> intro c hc <;> cases hc <;> decide
    refine (Spells.word hword .nil nofun).mono ?_
    rintro _ ⟨t, _, rfl, ht, rfl⟩
    obtain ⟨hkind, htext⟩ := Prod.mk.inj ht
    have hname : t.kind = .identifier := hkind
    refine ⟨rfl, by simp [hname], ?_⟩
    have hoperand : Reads (.operand (.identifier none t.text)) [t] .rightBrace := .identifier hname
    rw [htext] at hoperand
    exact .expression hoperand (.stop ha)
  | succ signs ih =>
    rw [towerChars_succ]
    have hoperand := ih (Nat.le_trans (by decide) (Nat.le_refl signStrength))
    refine (hoperand.sign (k := .bang) (.inl rfl) rfl (by simp [towerChars])
      (apart_towerChars signs)).mono ?_
    rintro _ ⟨t, ts, rfl, ht, hts⟩
    obtain ⟨hkind, htext⟩ := Prod.mk.inj ht
    refine ⟨by rw [List.length_cons, hts.length_eq], ?_, ?_⟩
    · have := hts.readable
      simp [hkind, this]
    · have hsigned : Reads (.operand (.unary none t.text (Node.tower signs))) (t :: ts)
          .rightBrace := .signed (.inl hkind) hts.reads
      rw [htext] at hsigned
      rw [← List.append_nil (t :: ts)]
      exact .expression hsigned (.stop ha)

/-- An expression without a semicolon behind it is read as the only statement. -/
theorem Reads.statement_alone {e : Node} {ts : List Token} {k : Kind}
    (hr : Reads (.expression lowest e) ts k) (hk : k ≠ .semicolon ∧ k ≠ .assign) :
    Reads (.statements [.expression none e]) ts k := by
  have hstatement : Reads (.statement (.expression none e)) (ts ++ []) k := by
    refine .expressionStatement hr (.omitted hk.1) fun hi => ?_
    rw [List.append_nil]
    exact hr.no_assign (Nat.le_refl _) hk.2 hi
  have hall : Reads (.statements [.expression none e]) (ts ++ [] ++ []) k :=
    .statements hstatement .noStatements
  rwa [List.append_nil, List.append_nil] at hall

/-- The line is lexed to six tokens besides the signs, which are read as the function. -/
theorem spells_towerLine (signs : Nat) : Spells isWordChar (towerLine signs).toList
    (TowerTokens (.statements [.expression none (.function none [] (Node.towerBlock signs))])
      (signs + 6) .endOfText) := by
  have hbody := (spells_towerChars signs (Nat.le_refl _)).concat_mark (c := '\x7d') (by decide)
  have hmarks := ((hbody.mark (c := '\x7b') (by decide)).mark (c := ')') (by decide)).mark
    (c := '(') (by decide)
  rw [toList_towerLine]
  refine (hmarks.keyword (w := "function") (by decide) (apart_mark (by decide))).mono ?_
  rintro _ ⟨f, _, rfl, hf, o, _, rfl, ho, c, _, rfl, hc, b, _, rfl, hb, ts, e, rfl, hts, he⟩
  have hfunction : f.kind = .functionWord := hf
  refine ⟨by simp [hts.length_eq], ?_, ?_⟩
  · simp [hfunction, ho, hc, hb, he, singleKind, hts.readable]
  · have hblock : Reads (.block (Node.towerBlock signs)) (b :: (ts ++ [e])) .endOfText :=
      .block hb (hts.reads.statement_alone (by decide)) he
    have hoperand : Reads (.operand (.function none [] (Node.towerBlock signs)))
        (f :: o :: ([c] ++ b :: (ts ++ [e]))) .endOfText :=
      .function hfunction ho (.none hc) hblock
    have hline : Reads (.expression lowest (.function none [] (Node.towerBlock signs)))
        (f :: o :: ([c] ++ b :: (ts ++ [e])) ++ []) .endOfText :=
      .expression hoperand (.stop (by decide))
    rw [List.append_nil] at hline
    exact hline.statement_alone (by decide)

/-! ## The line in a session -/

/-- The line is parsed to the function, up to spans, if the limit allows four levels for each of
its tokens. -/
theorem parse_towerLine (limits : Limits) (hp : 1 ≤ limits.problems)
    (hd : limits.depth ≤ maxDepthLimit) (hdeep : 4 * (signs + 7) ≤ limits.depth) :
    ∃ p span span' body, ({ text := towerLine signs } : Source).parse limits = .ok p ∧
      p.problems = #[] ∧
      p.program.statements = [.expression span (.function span' [] body)] ∧
      body.levels = signs + 3 := by
  have htokens := Source.programTokens_spelled (s := { text := towerLine signs })
    (spells_towerLine signs)
  obtain ⟨last, he, hlast, -⟩ := ({ text := towerLine signs } : Source).tokens_eq
  have hreadable : Readable ({ text := towerLine signs } : Source).tokens := by
    rw [he]
    simp [htokens.readable, hlast]
  obtain ⟨p, hparse⟩ := Source.parse_ok _ hd hreadable
  have hlength : ({ text := towerLine signs } : Source).tokens.length = signs + 7 := by
    rw [he, List.length_append, htokens.length_eq, List.length_singleton]
  obtain ⟨hproblems, hstatements⟩ := Source.parse_of_reads hp hparse
    (.inl (by rw [hlength]; exact_mod_cast hdeep)) htokens.reads
  rw [List.map_cons, List.map_nil, List.map_eq_singleton_iff] at hstatements
  obtain ⟨n, hn, hsame⟩ := hstatements
  obtain ⟨span, span', body, rfl, hbody⟩ := Node.eq_of_erase_function hsame
  refine ⟨p, span, span', body, hparse, hproblems, hn, ?_⟩
  rw [← Node.levels_erase, hbody, Node.levels_erase, Node.levels_towerBlock]

/-- A program that consists of a function has the function for its value. -/
theorem Heap.run_function (h : Heap) (f : FrameId) (rounds : Nat) {program : Program} {limit : Int}
    {span span' : Option Span} {body : Node} (hd : limit ≤ maxDepthLimit)
    (hp : program.statements = [.expression span (.function span' [] body)]) :
    h.run f program limit rounds =
      (.ok (.finished (some (.function ⟨[], body, (h.capture f).1⟩))), (h.capture f).2) := by
  have hlevels : ∃ d, (max 1000 limit).toNat = d + 4 := ⟨(max 1000 limit).toNat - 4, by omega⟩
  obtain ⟨d, hdepth⟩ := hlevels
  unfold Heap.run
  rw [depthBudget_eq, if_neg (Int.not_lt.2 hd), hdepth]
  simp only [Program.toNode, hp]
  rfl

namespace Repl

variable {s : Settings} {h : Heap} {stack : Stack}

/-- There are no blanks around the line. -/
theorem trim_towerLine (signs : Nat) : Text.trim (towerLine signs) = towerLine signs := by
  have hfirst : isBlank 'f' = false := by decide
  have hlast : isBlank '\x7d' = false := by decide
  have hchars : trimChars isBlank (towerLine signs).toList = (towerLine signs).toList := by
    rw [toList_towerLine]
    simp [trimChars, hfirst, hlast]
  rw [Text.trim, hchars, String.ofList_toList]

/-- In lower case the line still starts with its letter. -/
theorem head_lowerCase_towerLine (signs : Nat) :
    (lowerCase (towerLine signs)).toList.head? = some 'f' := by
  have hletter : lowerChar 'f' = 'f' := by decide +kernel
  have hline : ∃ cs, (towerLine signs).toList = 'f' :: cs := ⟨_, toList_towerLine signs⟩
  obtain ⟨cs, hcs⟩ := hline
  have hat : lowerAt [] 'f' cs = ['f'] := by
    rw [lowerAt, if_neg (by decide), if_neg (by decide), hletter]
  rw [lowerCase, hcs, lowerChars, hat, String.toList_ofList]
  rfl

/-- An exit keyword that starts with another letter is not the line. -/
theorem not_leaves_towerLine (hkey : (lowerCase s.exitKeyword).toList.head? ≠ some 'f')
    (signs : Nat) : ¬ Leaves s (towerLine signs) := by
  intro hl
  have hsame := hl.2
  rw [trim_towerLine] at hsame
  rw [← hsame] at hkey
  exact hkey (head_lowerCase_towerLine signs)

/-- **A line may have a function for its value that cannot be shown**, and then the session ends
with it: there is such a line for every stack that is low enough for the recursion limit. -/
theorem deep_function_stops (h : Heap) (hp : s.Positive) (hd : s.recursionLimit ≤ maxDepthLimit)
    (hroom : 4 * (stack.room + 7) ≤ s.recursionLimit)
    (hstays : ¬ Leaves s (towerLine stack.room)) :
    Stops stack s h (towerLine stack.room) (.nestedTooDeep "str") := by
  have hblank : ¬ Blank (towerLine stack.room) := by
    intro hb
    rw [Blank, trim_towerLine] at hb
    have hnil := toList_towerLine stack.room
    rw [hb] at hnil
    simp at hnil
  obtain ⟨p, span, span', body, hparse, hproblems, hstatements, hlevels⟩ :=
    parse_towerLine (limits s) hp.maxErrors hd hroom
  have hdeep : stack.prints body = false := stack.not_prints_of_high body (by omega)
  have hends : EndsWith s h (towerLine stack.room) p
      (.finished (some (.function ⟨[], body, (h.capture Heap.globalFrame).1⟩)))
      (h.capture Heap.globalFrame).2 := by
    refine ⟨0, fun rounds _ => ?_⟩
    rw [evaluateLine, lineSource, trim_towerLine,
      Heap.evaluate_of_no_problems h Heap.globalFrame rounds hparse hproblems]
    simp only [limits, Heap.run_function h Heap.globalFrame rounds hd hstatements]
    rfl
  exact .function ⟨hblank, hstays⟩ hends hdeep

/-- With nothing configured, a function of a thousand signs stops a session that nothing else
takes stack from. -/
example (h : Heap) : Stops .standard {} h (towerLine 1000) (.nestedTooDeep "str") :=
  deep_function_stops h ⟨by decide, by decide⟩ (by decide) (by decide)
    (not_leaves_towerLine (by decide +kernel) _)

end Repl

end Ember

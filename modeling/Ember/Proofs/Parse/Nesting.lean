import Ember.Proofs.Grammar.Printed
import Ember.Proofs.Grammar.Survey
import Ember.Proofs.Node.Nested

/-!
# Rules build trees from left to right

A rule starts at the offset of one token and ends at the end of another. What it builds on the way
lies between the two, part behind part, and so does what it gives (`parsePhrase_nests`). So all
trees that a parse has found are nested (`Source.survey_stands`), whatever went wrong in it.

On the same way every problem that is noted quotes the line of its own place, or that of an opening
brace (`Problem.Quotes`).
-/

namespace Ember

/-! ## Tokens of a source -/

namespace Source

variable {s : Source} {t u : Token} {ts : List Token}

/-- A token is the end of the text, or the source holds it where it says. -/
theorem holds_or_end (ht : t ∈ s.tokens) :
    (t.kind ≠ .endOfText ∧ s.Holds t) ∨ t = s.endToken := by
  obtain ⟨before, he, hbefore⟩ := s.tokenization_tokens.ended
  rw [he, List.mem_append, List.mem_singleton] at ht
  exact ht.imp_left (hbefore t)

/-- There is one end of the text. -/
theorem eq_endToken (ht : t ∈ s.tokens) (hk : t.kind = .endOfText) : t = s.endToken :=
  (holds_or_end ht).resolve_left fun h => h.1 hk

/-- A token does not end before it starts. -/
theorem offset_le_stop (ht : t ∈ s.tokens) : t.offset ≤ t.span.stop.offset := by
  rcases holds_or_end ht with ⟨-, h⟩ | rfl
  · exact Nat.le_of_lt h.lt
  · exact Nat.le_refl _

/-- A token has the text that its span covers. -/
theorem text_eq_covered (ht : t ∈ s.tokens) : s.covered t.span = t.text.toList := by
  rcases holds_or_end ht with ⟨-, h⟩ | rfl
  · rw [h.text, String.toList_ofList, covered]
  · simp [covered, stretch, endToken, place]

/-- A token ends before the next one starts. -/
theorem stop_le_offset (hts : t :: u :: ts <:+ s.tokens) : t.span.stop.offset ≤ u.offset := by
  have hordered := s.tokenization_tokens.ordered.sublist hts.sublist
  exact List.rel_of_pairwise_cons hordered (List.mem_cons_self ..)

end Source

namespace Node

variable {s : Source} {t : Token} {b e : Nat}

/-- A name has the span and the text of its token. -/
theorem fits_identifier (ht : t ∈ s.tokens) (hb : b ≤ t.offset) (he : t.span.stop.offset ≤ e) :
    (identifier (some t.span) t.text).Fits s b e :=
  Stacked.fits (.nil (Source.offset_le_stop ht)) rfl ⟨t, ht, t, ht, rfl⟩
    (Source.text_eq_covered ht) hb he

/-- An integer has the span of its token and the value of its digits. -/
theorem fits_integer (ht : t ∈ s.tokens) (hk : t.kind = .integer) (hb : b ≤ t.offset)
    (he : t.span.stop.offset ≤ e) :
    (integer (some t.span) (Text.digitsValue t.text.toList)).Fits s b e := by
  refine Stacked.fits (.nil (Source.offset_le_stop ht)) rfl ⟨t, ht, t, ht, rfl⟩ ?_ hb he
  obtain ⟨hne, hdigits⟩ := (Source.lexed ht).digits hk
  rw [Source.text_eq_covered ht]
  exact ⟨hne, hdigits, congrArg Nat.cast (digitsValue_eq _)⟩

/-- The node is one over these trees, with this span, and spells nothing itself. -/
structure Over (n : Node) (span : Span) (ns : List Node) : Prop where
  span_eq : n.span? = some span
  children_eq : n.children = ns
  spelled (cs : List Char) : n.SpelledAs cs

/-- A node over stacked trees fits where it is closed at a later token. -/
theorem Over.fits {n : Node} {ns : List Node} {first : Location} {d : Nat}
    (hn : n.Over ⟨first, t.span.stop⟩ ns) (hfirst : ∃ u ∈ s.tokens, first = u.span.start)
    (ht : t ∈ s.tokens) (hns : Stacked s first.offset ns d) (hd : d ≤ t.span.stop.offset)
    (hb : b ≤ first.offset) : n.Fits s b t.span.stop.offset := by
  obtain ⟨u, hu, rfl⟩ := hfirst
  refine Stacked.fits ?_ hn.span_eq ⟨u, hu, t, ht, rfl⟩ (hn.spelled _) hb (Nat.le_refl _)
  rw [hn.children_eq]
  exact hns.widen hd

/-- A tree that lends its span to a statement and a block around it. -/
theorem Fits.wrapped {n : Node} (hn : n.Fits s b e) (hthere : n.isMissing = false) :
    (block n.span? [expression n.span? n]).Fits s b e := by
  obtain ⟨span, hspan, hbetween, hb, he, hown⟩ := hn.exists_span hthere
  rw [hspan]
  have hstatement : (expression (some span) n).Fits s span.start.offset span.stop.offset :=
    (Stacked.single hown).fits rfl hbetween trivial (Nat.le_refl _) (Nat.le_refl _)
  exact (Stacked.single hstatement).fits rfl hbetween trivial hb he

/-- A tree that fits behind stacked ones may be added to them. -/
theorem Stacked.snoc {ns : List Node} {n : Node} {d : Nat} (hns : Stacked s b ns d)
    (hn : n.Fits s d e) : Stacked s b (ns ++ [n]) e :=
  hns.append (.single hn)

/-- Trees stay stacked when one is kept, and also when a missing one is not. -/
theorem Stacked.keep {found : Array Node} {n : Node} {d : Nat}
    (hfound : Stacked s b found.toList d) (hn : n.Fits s d e) :
    Stacked s b (keep found n).toList e := by
  unfold Ember.keep
  split
  · exact hfound.widen hn.le
  · rw [Array.toList_push]
    exact hfound.snoc hn

end Node

/-! ## Windows of a source -/

/-- The problem quotes the line that it points at. Only a block that is not closed differs: its
problem points at the end of the text and quotes the line of an opening brace. -/
def Problem.Quotes (s : Source) (p : Problem) : Prop :=
  if p.cause = .unexpectedEnd Kind.rightBrace.name then
    p.span = s.endToken.span ∧
      ∃ t ∈ s.tokens, t.kind = .leftBrace ∧ p.quotedLine = t.span.start.line
  else p.quotedLine = p.span.start.line

namespace Window

/-- The window is one on the source, and its problems quote it so. -/
structure Of (s : Source) (w : Window) : Prop where
  tokens : w.tokens <:+ s.tokens
  quotes : ∀ p ∈ w.problems, p.Quotes s

variable {s : Source} {w w' : Window} {cause : SyntaxCause} {token quoted : Token}

/-- The offset where the current token ends. -/
def reach (w : Window) : Nat :=
  w.current.span.stop.offset

theorem Of.current (hw : w.Of s) : w.current ∈ s.tokens :=
  hw.tokens.subset (List.mem_cons_self ..)

/-- A problem that quotes what it should may be noted. -/
theorem Of.note (hw : w.Of s)
    (hp : Problem.Quotes s ⟨cause, token.span, quoted.span.start.line⟩) :
    (w.note cause token quoted).Of s := by
  refine ⟨hw.tokens, fun p hmem => ?_⟩
  rcases Array.mem_push.1 hmem with hmem | rfl
  · exact hw.quotes p hmem
  · exact hp

/-- A move stays on the source and leaves the problems as they are. -/
theorem Of.advance (hw : w.Of s) : w.advance.Of s := by
  refine ⟨w.advance_tokens_suffix.trans hw.tokens, ?_⟩
  rw [w.advance_problems]
  exact hw.quotes

/-- The current token ends before the token starts that a move leads to. -/
theorem Of.reach_le_advance (hw : w.Of s) : w.reach ≤ w.advance.current.offset := by
  obtain ⟨t, ahead, problems⟩ := w
  cases ahead with
  | cons u ts => exact Source.stop_le_offset hw.tokens
  | nil =>
    -- the last token is the end of the text, which is empty
    obtain ⟨before, he, -⟩ := s.tokenization_tokens.ended
    have hlast : t = s.endToken := by
      obtain ⟨front, hfront⟩ := hw.tokens
      have hsame := hfront.trans he
      exact List.singleton_inj.1 (List.append_inj_right' hsame rfl)
    subst hlast
    exact Nat.le_refl _

/-- A parse only moves on. -/
theorem Leads.reach_le {stop : Option ParseStop} (h : w.Leads stop w') (hw : w.Of s) :
    w.reach ≤ w'.reach := by
  have hordered := s.tokenization_tokens.ordered.sublist hw.tokens.sublist
  have hmem : w'.current ∈ w.tokens := h.tokens.subset (List.mem_cons_self ..)
  rcases List.mem_cons.1 hmem with he | hlater
  · exact Nat.le_of_eq (congrArg (·.span.stop.offset) he).symm
  · exact Nat.le_trans (List.rel_of_pairwise_cons hordered hlater)
      (Source.offset_le_stop (hw.tokens.subset hmem))

end Window

/-- A problem at a token quotes the line of that token. -/
theorem Problem.quotes_own {s : Source} {cause : SyntaxCause} (token : Token)
    (hcause : cause ≠ .unexpectedEnd Kind.rightBrace.name) :
    Problem.Quotes s ⟨cause, token.span, token.span.start.line⟩ := by
  rw [Problem.Quotes, if_neg hcause]

/-! ## Steps -/

namespace Parser

open Node (Fits Stacked)

variable {α β : Type} {s : Source} {b b₀ d e : Nat} {t : Token}

/-- A step has come to a window of the source. What it gives, and the offset that it has come to,
are related by `Q`. -/
def Comes (s : Source) (Q : α → Nat → Prop) : EStateM.Result ParseStop Window α → Prop
  | .ok a w => w.Of s ∧ Q a w.reach
  | .error _ w => w.Of s

/-- The step does so wherever the current token starts at `b` or later, and ends at `e` or later. -/
def Meets (s : Source) (b e : Nat) (x : Parser α) (Q : α → Nat → Prop) : Prop :=
  ∀ w : Window, w.Of s → b ≤ w.current.offset → e ≤ w.reach → Comes s Q (x w)

/-- The step does so at every opening brace that starts at `b` or later. -/
def Opens (s : Source) (b : Nat) (x : Parser α) (Q : α → Nat → Prop) : Prop :=
  ∀ w : Window, w.Of s → w.current.kind = .leftBrace → b ≤ w.current.offset → Comes s Q (x w)

variable {Q : α → Nat → Prop} {R : β → Nat → Prop}

/-- Only a missing closing brace is reported as one. -/
theorem unexpected_ne_rightBrace {kind : Kind} (hk : kind ≠ .rightBrace) :
    unexpected kind t ≠ .unexpectedEnd Kind.rightBrace.name := by
  unfold unexpected
  split
  · cases kind <;> first | exact absurd rfl hk | decide
  · nofun

/-- A step goes on from where another one has come to. -/
theorem Comes.bind {x : Parser α} {f : α → Parser β} {w : Window} (hx : Comes s Q (x w))
    (hf : ∀ a e, Q a e → Meets s 0 e (f a) R) : Comes s R ((x >>= f) w) := by
  rw [bind_apply]
  cases hxw : x w with
  | ok a w₁ =>
    rw [hxw] at hx
    exact hf a _ hx.2 w₁ hx.1 (Nat.zero_le _) (Nat.le_refl _)
  | error stop w₁ =>
    rw [hxw] at hx
    exact hx

namespace Meets

/-- Steps one after the other: the second one starts from what the first one gave and how far it
came. -/
theorem bind {x : Parser α} {f : α → Parser β} (hx : Meets s b e x Q)
    (hf : ∀ a e, Q a e → Meets s 0 e (f a) R) : Meets s b e (x >>= f) R :=
  fun w hw hb he => (hx w hw hb he).bind hf

/-- What a step gives may be weakened. -/
theorem imp {x : Parser α} {Q' : α → Nat → Prop} (hx : Meets s b e x Q)
    (hQ : ∀ a e, Q a e → Q' a e) : Meets s b e x Q' := by
  intro w hw hb he
  have hcomes := hx w hw hb he
  cases hxw : x w with
  | ok a w₁ =>
    rw [hxw] at hcomes
    exact ⟨hcomes.1, hQ a _ hcomes.2⟩
  | error stop w₁ =>
    rw [hxw] at hcomes
    exact hcomes

theorem pure {a : α} (ha : ∀ e', e ≤ e' → Q a e') : Meets s b e (Pure.pure a) Q :=
  fun _ hw _ he => ⟨hw, ha _ he⟩

theorem throw (stop : ParseStop) : Meets s b e (MonadExcept.throw stop) Q :=
  fun _ hw _ _ => hw

/-- A choice does what both of its sides do. -/
theorem ite {c : Prop} [Decidable c] {x y : Parser α} (hx : c → Meets s b e x Q)
    (hy : ¬ c → Meets s b e y Q) : Meets s b e (if c then x else y) Q := by
  split
  · exact hx ‹_›
  · exact hy ‹_›

/-- What a step meets wherever a token starts, it meets at a token that is known to. -/
theorem here {x : Parser α} (hx : Meets s b b x Q) (he : b ≤ e) : Meets s b e x Q :=
  fun w hw hb he' => hx w hw hb (Nat.le_trans he he')

/-! ### What a rule starts with -/

/-- What reads the current token may use where it starts and ends. -/
theorem current {f : Token → Parser α}
    (hf : ∀ t ∈ s.tokens, b ≤ t.offset → Meets s t.offset t.span.stop.offset (f t) Q) :
    Meets s b e (Parser.current >>= f) Q :=
  fun w hw hb _ => hf w.current hw.current hb w hw (Nat.le_refl _) (Nat.le_refl _)

theorem next {f : Token → Parser α} (hf : ∀ t, Meets s b e (f t) Q) :
    Meets s b e (Parser.next >>= f) Q :=
  fun w => hf w.next w

theorem remaining {f : Nat → Parser α} (hf : ∀ m, Meets s b e (f m) Q) :
    Meets s b e (Parser.remaining >>= f) Q :=
  fun w => hf w.ahead.length w

/-- Behind a move the current token starts where the last one ended, or later. -/
theorem advance {f : Unit → Parser α} (hf : Meets s e e (f ()) Q) :
    Meets s b e (Parser.advance >>= f) Q := by
  intro w hw _ he
  have hstart : e ≤ w.advance.current.offset := Nat.le_trans he hw.reach_le_advance
  exact hf _ hw.advance hstart
    (Nat.le_trans hstart (Source.offset_le_stop hw.advance.current))

/-- A problem does not move the parse. -/
theorem note {cause : SyntaxCause} {token quoted : Token} {f : Unit → Parser α}
    (hp : Problem.Quotes s ⟨cause, token.span, quoted.span.start.line⟩)
    (hf : Meets s b e (f ()) Q) :
    Meets s b e ((modify (·.note cause token quoted) : Parser Unit) >>= f) Q :=
  fun _ hw => hf _ (hw.note hp)

theorem nextIs {kind : Kind} {x y : Parser α} (hx : Meets s b e x Q) (hy : Meets s b e y Q) :
    Meets s b e (do if ← Parser.nextIs kind then x else y) Q :=
  next fun t => show Meets s b e (if decide (t.kind = kind) then x else y) Q from
    ite (fun _ => hx) (fun _ => hy)

/-- Behind a token that was there the parse has moved; without it a problem is noted. -/
theorem expect {kind : Kind} (hk : kind ≠ .rightBrace) {x y : Parser α} (hx : Meets s e e x Q)
    (hy : Meets s b e y Q) : Meets s b e (do if ← Parser.expect kind then x else y) Q := by
  intro w hw hb he
  rw [bind_apply, expect_apply]
  by_cases hnext : w.next.kind = kind
  · rw [if_pos hnext]
    exact (advance (f := fun _ => x) hx) w hw hb he
  · rw [if_neg hnext]
    exact hy _ (hw.note (Problem.quotes_own _ (unexpected_ne_rightBrace hk))) hb he

/-! ### Trees -/

/-- A missing tree fits anywhere. -/
theorem missing (hb : b₀ ≤ e) : Meets s b e (Pure.pure Node.missing) (Fits s b₀) :=
  pure fun _ he => Node.fits_missing (Nat.le_trans hb he)

/-- What follows a token that has to be there fits, or nothing does. -/
theorem past {kind : Kind} (hk : kind ≠ .rightBrace) {more : Parser Node} (hb : b₀ ≤ e)
    (hmore : Meets s e e more (Fits s b₀)) : Meets s b e (Parser.past kind more) (Fits s b₀) :=
  expect hk hmore (missing hb)

/-- One tree more, behind others. -/
theorem part {x : Parser Node} {f : Node → Parser β} {ns : List Node}
    (hx : Meets s e e x (Fits s e)) (hns : Stacked s b₀ ns e)
    (hf : ∀ n e', Stacked s b₀ (ns ++ [n]) e' → Meets s 0 e' (f n) R) :
    Meets s e e (x >>= f) R :=
  hx.bind fun n e' hn => hf n e' (hns.snoc hn)

/-- A rule that starts at a token. -/
theorem first {f : Token → Parser Node}
    (hf : ∀ t ∈ s.tokens, Stacked s t.offset [] t.span.stop.offset →
      Meets s t.offset t.span.stop.offset (f t) (Fits s t.offset)) :
    Meets s b e (Parser.current >>= f) (Fits s b) :=
  current fun t ht hb => (hf t ht (.nil (Source.offset_le_stop ht))).imp fun _ _ hn =>
    hn.mono hb (Nat.le_refl _)

/-- A node over the trees that were found since a token. -/
theorem node {make : Span → Node} {ns : List Node} (ht : t ∈ s.tokens)
    (hns : Stacked s t.offset ns e) (hmake : ∀ span, (make span).Over span ns) :
    Meets s b e (spanFrom t >>= fun span => Pure.pure (make span)) (Fits s t.offset) :=
  fun _ hw _ he => ⟨hw, (hmake _).fits ⟨t, ht, rfl⟩ hw.current hns he (Nat.le_refl _)⟩

/-- A node over a tree and those found behind it. -/
theorem nodeOver {make : Span → Node} {n : Node} {ns : List Node} (hn : n.Fits s b₀ d)
    (hthere : n.isMissing = false) (hns : Stacked s d ns e)
    (hmake : ∀ span, (make span).Over span (n :: ns)) :
    Meets s b e (spanOver n >>= fun span => Pure.pure (make span)) (Fits s b₀) := by
  obtain ⟨span, hspan, ⟨t, ht, u, -, rfl⟩, hb, hd, hown⟩ := hn.exists_span hthere
  refine fun w hw _ he => ⟨hw, ?_⟩
  rw [hspan]
  exact (hmake _).fits ⟨t, ht, rfl⟩ hw.current (.cons hown (hns.mono hd (Nat.le_refl e))) he hb

end Meets

/-- A rule for an opening brace may use the span of the brace. -/
theorem Opens.first {f : Token → Parser Node}
    (hf : ∀ t ∈ s.tokens, t.kind = .leftBrace → Stacked s t.offset [] t.span.stop.offset →
      Meets s t.offset t.span.stop.offset (f t) (Fits s t.offset)) :
    Opens s b (Parser.current >>= f) (Fits s b) := by
  intro w hw hkind hb
  have hrest := hf w.current hw.current hkind (.nil (Source.offset_le_stop hw.current))
  exact (hrest.imp fun _ _ hn => hn.mono hb (Nat.le_refl _)) w hw (Nat.le_refl _) (Nat.le_refl _)

/-! ### Names -/

/-- Names between two offsets, one behind the other. Where there is no list there are none. -/
abbrev NamesStacked (s : Source) (b : Nat) (xs : Option (Array Name)) (e : Nat) : Prop :=
  Stacked s b ((xs.getD #[]).toList.map Name.toNode) e

/-- A name behind the others is added to them. -/
theorem NamesStacked.push {found : Array Name} (hf : NamesStacked s b₀ (some found) e)
    (ht : t ∈ s.tokens) (hb : e ≤ t.offset) :
    NamesStacked s b₀ (some (found.push (nameOf t))) t.span.stop.offset := by
  rw [NamesStacked, Option.getD_some, Array.toList_push, List.map_append]
  exact hf.snoc (Node.fits_identifier ht hb (Nat.le_refl _))

theorem Meets.noNames (hb : b₀ ≤ e) : Meets s b e (Pure.pure none) (NamesStacked s b₀) :=
  .pure fun _ he => .nil (Nat.le_trans hb he)

/-- Further parameters stand one behind the other. -/
theorem meets_moreParameters {found : Array Name} {m : Nat}
    (hf : NamesStacked s b₀ (some found) e) :
    Meets s b e (moreParameters found m) (NamesStacked s b₀) := by
  induction m generalizing found b e with
  | zero => exact .noNames hf.le
  | succ m ih =>
    unfold moreParameters
    refine .nextIs (.advance <| .expect (by decide) ?_ (.noNames hf.le))
      (.expect (by decide) ?_ (.noNames hf.le))
    · exact .current fun t ht hb => ih (hf.push ht hb)
    · exact .pure fun _ => hf.widen

/-- Parameters stand one behind the other, from the parenthesis on. -/
theorem meets_parameters : Meets s e e parameters (NamesStacked s e) := by
  unfold parameters
  have hnone : NamesStacked s e (some #[]) e := .nil (Nat.le_refl e)
  refine .nextIs (.advance ?_) (.expect (by decide) ?_ (.noNames (Nat.le_refl e)))
  · exact .pure fun _ => hnone.widen
  · exact .current fun t ht hb => .remaining fun m => meets_moreParameters (hnone.push ht hb)

/-- A semicolon that is passed lies behind the statement. -/
theorem meets_terminator : Meets s b e terminator (fun _ e' => e ≤ e') := by
  unfold terminator
  exact .nextIs (.advance (f := fun _ => Pure.pure ()) <| .pure fun _ => id) (.pure fun _ => id)

/-! ## The rules over the phrases inside -/

/-- The phrases inside give trees that fit where they stand. A block has to start at a brace, and a
call behind its callee. -/
structure Nests (s : Source) (inner : Phrase → Parser Node) : Prop where
  statement (b : Nat) : Meets s b b (inner .statement) (Fits s b)
  block (b : Nat) : Opens s b (inner .block) (Fits s b)
  expression (above b : Nat) : Meets s b b (inner (.expression above)) (Fits s b)
  conditional (b : Nat) : Meets s b b (inner .conditional) (Fits s b)
  call {callee : Node} {b e : Nat} : callee.Fits s b e → callee.isMissing = false →
    Meets s e e (inner (.call callee)) (Fits s b)

/-- The block that a brace opens, behind other trees. -/
theorem Meets.body {self : Phrase → Parser Node} (hself : Nests s self) {f : Node → Parser Node}
    {ns : List Node} (hns : Stacked s b₀ ns e)
    (hf : ∀ n e', Stacked s b₀ (ns ++ [n]) e' → Meets s 0 e' (f n) (Fits s b₀)) :
    Meets s b e (Parser.past .leftBrace (self .block >>= f)) (Fits s b₀) := by
  intro w hw hb he
  rw [past_apply]
  by_cases hnext : w.next.kind = .leftBrace
  · rw [if_pos hnext]
    have hopen : w.advance.current.kind = .leftBrace := w.advance_current ▸ hnext
    have hstart : e ≤ w.advance.current.offset := Nat.le_trans he hw.reach_le_advance
    exact (hself.block e _ hw.advance hopen hstart).bind fun n e' hn => hf n e' (hns.snoc hn)
  · rw [if_neg hnext]
    refine missing hns.le _ (hw.note ?_) hb he
    exact Problem.quotes_own _ (unexpected_ne_rightBrace (by decide))

section

variable {self : Phrase → Parser Node} (hself : Nests s self)

include hself

/-- The statements of a block stand one behind the other, by induction on the bound of their
loop. -/
theorem meets_blockStatements {opening : Token} (hopening : opening ∈ s.tokens)
    (hkind : opening.kind = .leftBrace) {found : Array Node} {m : Nat}
    (hf : Stacked s b₀ found.toList b) :
    Meets s b b (blockStatements self opening found m) (fun ns => Stacked s b₀ ns.toList) := by
  induction m generalizing found b with
  | zero => exact .pure fun _ => hf.widen
  | succ m ih =>
    unfold blockStatements
    refine .current fun t ht hb => ?_
    have hfound : ∀ e, t.span.stop.offset ≤ e → Stacked s b₀ found.toList e := fun e he =>
      hf.widen (Nat.le_trans hb (Nat.le_trans (Source.offset_le_stop ht) he))
    refine .ite (fun _ => .pure hfound) fun _ => ?_
    refine .ite (fun hend => .note ?_ (.pure hfound)) fun _ => ?_
    · rw [Problem.Quotes, if_pos rfl]
      exact ⟨congrArg Token.span (Source.eq_endToken ht hend), opening, hopening, hkind, rfl⟩
    · refine .bind ((hself.statement _).here (Source.offset_le_stop ht))
        fun n e hn => .advance (ih ?_)
      exact (hf.widen hb).keep hn

/-- A block has its statements between its braces. -/
theorem opens_block : Opens s b (block self) (Fits s b) := by
  unfold block
  refine .first fun t ht hkind hnone => .advance <| .remaining fun _ => ?_
  have hfound : Stacked s t.offset (#[] : Array Node).toList t.span.stop.offset := hnone
  refine .bind (meets_blockStatements hself ht hkind hfound) fun ns e hns => ?_
  exact .node ht hns fun _ => ⟨rfl, rfl, fun _ => trivial⟩

/-- A conditional has its condition and its branches one behind the other. -/
theorem meets_conditional : Meets s b b (conditional self) (Fits s b) := by
  unfold conditional
  refine .first fun t ht hnone => .past (by decide) hnone.le (.advance ?_)
  refine .part (hself.expression _ _) hnone fun c e₁ h₁ => .past (by decide) h₁.le ?_
  refine .body hself h₁ fun a e₂ h₂ => ?_
  have hfinish : ∀ {b e : Nat} {alternative : Node}, Stacked s t.offset [c, a, alternative] e →
      Meets s b e (do return .conditional (some (← spanFrom t)) c a alternative)
        (Fits s t.offset) :=
    fun h => .node ht h fun _ => ⟨rfl, rfl, fun _ => trivial⟩
  refine .nextIs (.advance <| .nextIs (.advance ?_) ?_) ?_
  · refine .bind (hself.conditional _) fun n e₃ hn => ?_
    refine .ite (fun _ => .missing (Nat.le_trans h₂.le hn.le)) fun hthere => hfinish (h₂.snoc ?_)
    exact hn.wrapped (Bool.not_eq_true _ ▸ hthere)
  · exact .body hself h₂ fun n e₃ h₃ => hfinish h₃
  · exact hfinish (h₂.snoc (Node.fits_missing (Nat.le_refl _)))

/-- A function has its parameters in front of its body. -/
theorem meets_function : Meets s b b (function self) (Fits s b) := by
  unfold function
  refine .first fun t ht hnone => .past (by decide) hnone.le ?_
  refine .bind meets_parameters fun xs e₁ h₁ => ?_
  cases xs with
  | none => exact .missing (Nat.le_trans hnone.le h₁.le)
  | some names =>
    refine .body hself (hnone.append h₁) fun body e₂ h₂ => ?_
    exact .node ht h₂ fun _ => ⟨rfl, rfl, fun _ => trivial⟩

/-- A sign stands in front of its operand, and the tree covers both. -/
theorem meets_signed : Meets s b b (signed self) (Fits s b) := by
  unfold signed
  refine .first fun t ht hnone => .advance <| .part (hself.expression _ _) hnone fun n e hn => ?_
  refine .ite (fun _ => .missing hn.le) fun _ => ?_
  exact .node ht hn fun _ => ⟨rfl, rfl, fun _ => trivial⟩

/-- What is in parentheses keeps its own span between them. -/
theorem meets_grouped : Meets s b b (grouped self) (Fits s b) := by
  unfold grouped
  refine .advance <| .bind (hself.expression _ _) fun n e hn => .past (by decide) hn.le ?_
  exact .pure fun _ => hn.widen

/-- Further arguments stand one behind the other. -/
theorem meets_moreArguments {found : Array Node} {m : Nat} (hf : Stacked s b₀ found.toList e) :
    Meets s b e (moreArguments self found m) (fun ns => Stacked s b₀ ns.toList) := by
  induction m generalizing found b e with
  | zero => exact .pure fun _ => hf.widen
  | succ m ih =>
    unfold moreArguments
    refine .nextIs (.advance <| .advance ?_) (.pure fun _ => hf.widen)
    refine .bind (hself.expression _ _) fun n e₁ hn => ih ?_
    rw [Array.toList_push]
    exact hf.snoc hn

/-- Arguments stand one behind the other, from the parenthesis on. -/
theorem meets_arguments :
    Meets s b b (arguments self) (fun all => Stacked s b (all.getD #[]).toList) := by
  unfold arguments
  have hnone : ∀ e, b ≤ e → Stacked s b [] e := fun _ => .nil
  refine .nextIs (.advance (.pure hnone)) (.advance ?_)
  refine .bind (hself.expression _ _) fun n e hn => .remaining fun m => ?_
  have hfound : Stacked s b #[n].toList e := .single hn
  refine .bind (meets_moreArguments hself hfound) fun ns e' hns => ?_
  refine .expect (by decide) (.pure fun _ he => ?_) (.pure fun _ he => ?_)
  · exact hns.widen he
  · exact hnone _ (Nat.le_trans hns.le he)

section

variable {left : Node} (hleft : left.Fits s b₀ b) (hthere : left.isMissing = false)

include hleft hthere

/-- A call has its arguments behind its callee. -/
theorem meets_call : Meets s b b (call self left) (Fits s b₀) := by
  unfold call
  refine .bind (meets_arguments hself) fun all e hall => ?_
  cases all with
  | none => exact .missing (Nat.le_trans hleft.le hall.le)
  | some ns => exact .nodeOver hleft hthere hall fun _ => ⟨rfl, rfl, fun _ => trivial⟩

/-- An operator has its right operand behind its left one. -/
theorem meets_infixed : Meets s b b (infixed self left) (Fits s b₀) := by
  unfold infixed
  refine .current fun t ht hb => .advance <| .bind (hself.expression _ _) fun n e hn => ?_
  have hle : b ≤ t.span.stop.offset := Nat.le_trans hb (Source.offset_le_stop ht)
  refine .ite (fun _ => .missing (Nat.le_trans hleft.le (Nat.le_trans hle hn.le))) fun _ => ?_
  refine .nodeOver hleft hthere ((Node.Stacked.single hn).mono hle (Nat.le_refl _)) ?_
  exact fun _ => ⟨rfl, rfl, fun _ => trivial⟩

end

/-- Operators behind an operand nest to the left, each tree around the one before. -/
theorem meets_operators (above : Nat) {left : Node} {m : Nat} (hleft : left.Fits s b₀ e) :
    Meets s b e (operators self above left m) (Fits s b₀) := by
  induction m generalizing left b e with
  | zero => exact .pure fun _ => hleft.widen
  | succ m ih =>
    unfold operators
    refine .next fun t => .ite (fun _ => ?_) fun hgo => .advance (.ite (fun _ => ?_) fun _ => ?_)
    · exact .pure fun _ => hleft.widen
    · exact .bind (hself.call hleft (by simpa using mt Or.inl hgo)) fun n e hn => ih hn
    · exact .bind (meets_infixed hself hleft (by simpa using mt Or.inl hgo)) fun n e hn => ih hn

/-- An operand fits whatever its first token is. -/
theorem meets_operand : Meets s b b (operand self) (Fits s b) := by
  unfold operand
  refine .first fun t ht hnone => ?_
  have hown := Nat.le_refl t.offset
  have hnote : ∀ cause : SyntaxCause, cause ≠ .unexpectedEnd Kind.rightBrace.name →
      Meets s t.offset t.span.stop.offset (do Parser.note cause t; return .missing)
        (Fits s t.offset) :=
    fun _ hcause => .note (Problem.quotes_own t hcause) (.missing hnone.le)
  split
  · exact .pure fun _ he => Node.fits_identifier ht hown he
  · next hk =>
    refine .ite (fun _ => .throw _) fun _ => .pure fun _ he => ?_
    exact Node.fits_integer ht hk hown he
  · exact (meets_signed hself).here hnone.le
  · exact (meets_signed hself).here hnone.le
  · exact (meets_grouped hself).here hnone.le
  · exact (meets_conditional hself).here hnone.le
  · exact (meets_function hself).here hnone.le
  · exact hnote _ (by simp)
  · exact hnote _ (by simp)

/-- An expression fits: its operand does, and each operator around it. -/
theorem meets_expression (above : Nat) : Meets s b b (expression self above) (Fits s b) := by
  unfold expression
  refine .bind (meets_operand hself) fun n e hn => .remaining fun m => ?_
  exact meets_operators hself above hn

/-! ### Statements -/

/-- A declaration has its name in front of its value, whatever ends it. -/
theorem meets_declaration {finish : Parser Unit}
    (hfinish : ∀ b e, Meets s b e finish (fun _ e' => e ≤ e')) :
    Meets s b b (declaration self finish) (Fits s b) := by
  unfold declaration
  refine .first fun t ht hnone => .past (by decide) hnone.le (.current fun x hx hb => ?_)
  have hname := hnone.snoc (Node.fits_identifier hx hb (Nat.le_refl _))
  refine .past (by decide) hname.le (.advance ?_)
  refine .part (hself.expression _ _) hname fun n e hn => .bind (hfinish _ _) fun _ e' he => ?_
  exact .node ht (hn.widen he) fun _ => ⟨rfl, rfl, fun _ => trivial⟩

/-- An assignment has its name in front of its value, whatever ends it. -/
theorem meets_assignment {finish : Parser Unit}
    (hfinish : ∀ b e, Meets s b e finish (fun _ e' => e ≤ e')) :
    Meets s b b (assignment self finish) (Fits s b) := by
  unfold assignment
  refine .first fun t ht hnone => ?_
  have hname : Stacked s t.offset [(nameOf t).toNode] t.span.stop.offset :=
    .single (Node.fits_identifier ht (Nat.le_refl _) (Nat.le_refl _))
  refine .past (by decide) hname.le (.advance ?_)
  refine .part (hself.expression _ _) hname fun n e hn => .bind (hfinish _ _) fun _ e' he => ?_
  exact .node ht (hn.widen he) fun _ => ⟨rfl, rfl, fun _ => trivial⟩

/-- An expression as a statement has the span of the expression. -/
theorem meets_expressionStatement : Meets s b b (expressionStatement self) (Fits s b) := by
  unfold expressionStatement
  refine .first fun t ht hnone => .bind ((hself.expression _ _).here hnone.le)
    fun n e hn => .ite (fun _ => .missing hn.le) fun _ => .bind meets_terminator fun _ e' he => ?_
  have hstack := (Node.Stacked.single hn).widen he
  exact .node ht hstack fun _ => ⟨rfl, rfl, fun _ => trivial⟩

/-- A loop has its condition in front of its body. -/
theorem meets_whileLoop : Meets s b b (whileLoop self) (Fits s b) := by
  unfold whileLoop
  refine .first fun t ht hnone => .past (by decide) hnone.le (.advance ?_)
  refine .part (hself.expression _ _) hnone fun c e₁ h₁ => .past (by decide) h₁.le ?_
  refine .body hself h₁ fun body e₂ h₂ => ?_
  exact .node ht h₂ fun _ => ⟨rfl, rfl, fun _ => trivial⟩

/-- A clause of a counting loop fits as the statement it is. -/
theorem meets_clause (name : String) : Meets s b b (clause self name) (Fits s b) := by
  unfold clause
  have hnothing : ∀ b e, Meets s b e (Pure.pure () : Parser Unit) (fun _ e' => e ≤ e') :=
    fun _ _ => .pure fun _ => id
  refine .first fun t ht hnone => ?_
  refine .ite (fun _ => (meets_declaration hself hnothing).here hnone.le) fun _ => .next fun u => ?_
  refine .ite (fun _ => (meets_assignment hself hnothing).here hnone.le) fun _ => ?_
  exact .note (Problem.quotes_own t (by simp)) (.missing hnone.le)

/-- A counting loop has its clauses and its body one behind the other. -/
theorem meets_forLoop : Meets s b b (forLoop self) (Fits s b) := by
  unfold forLoop
  refine .first fun t ht hnone => .past (by decide) hnone.le (.advance ?_)
  refine .part (meets_clause hself _) hnone fun i e₁ h₁ => ?_
  refine .ite (fun _ => .missing h₁.le) fun _ => .past (by decide) h₁.le (.advance ?_)
  refine .part (hself.expression _ _) h₁ fun c e₂ h₂ => .past (by decide) h₂.le (.advance ?_)
  refine .part (meets_clause hself _) h₂ fun p e₃ h₃ => ?_
  refine .ite (fun _ => .missing h₃.le) fun _ => .past (by decide) h₃.le ?_
  refine .body hself h₃ fun body e₄ h₄ => ?_
  exact .node ht h₄ fun _ => ⟨rfl, rfl, fun _ => trivial⟩

/-- **Every statement fits**, with its parts inside it and one behind the other. -/
theorem meets_statement : Meets s b b (statement self) (Fits s b) := by
  unfold statement
  have hfinish : ∀ b e, Meets s b e terminator (fun _ e' => e ≤ e') := fun _ _ => meets_terminator
  refine .first fun t ht hnone => ?_
  split
  · exact (meets_declaration hself hfinish).here hnone.le
  · exact (meets_whileLoop hself).here hnone.le
  · exact (meets_forLoop hself).here hnone.le
  · exact .nextIs ((meets_assignment hself hfinish).here hnone.le)
      ((meets_expressionStatement hself).here hnone.le)
  · exact (meets_expressionStatement hself).here hnone.le

end

end Parser

open Ember.Parser

/-- **Every rule builds its tree from left to right**, and notes only problems that quote the
source as they should. -/
theorem parsePhrase_nests (s : Source) : ∀ depth : Nat, Nests s (parsePhrase depth)
  | 0 => ⟨fun _ => .throw .tooDeep, fun _ _ hw _ _ => hw, fun _ _ => .throw .tooDeep,
      fun _ => .throw .tooDeep, fun _ _ => .throw .tooDeep⟩
  | 1 =>
    have hself := parsePhrase_nests s 0
    ⟨fun _ => .throw .tooDeep, fun _ => opens_block hself, fun _ _ => .throw .tooDeep,
      fun _ => meets_conditional hself, meets_call hself⟩
  | depth + 2 =>
    have hself := parsePhrase_nests s depth
    have hnext := parsePhrase_nests s (depth + 1)
    ⟨fun _ => meets_statement hself, fun _ => opens_block hnext,
      fun above _ => meets_expression hself above, fun _ => meets_conditional hnext,
      meets_call hnext⟩

end Ember

import Ember.Proofs.Node.Spans
import Ember.Proofs.Parse.Rounds
import Ember.Proofs.Token.Pieces

/-!
# Parses side by side

Two parses run in tandem as long as both windows show the same current token and the same next one,
up to places: nothing else is looked at by a rule. What is ahead may differ, provided that it is
brought back together before it is reached, and a `Tandem` says how: which pairs of windows are
`near`, which are `ready` for both parses to move on, and which ends are `excused`. From near
windows every rule then comes to ready windows with trees that are alike up to their spans, unless
it is excused (`Tandem.agree`).

Only a conditional may be where the texts part, so a tandem is asked for that rule there.
-/

namespace Ember

namespace Token

variable {t t' : Token}

theorem kind_of_bare (h : t.bare = t'.bare) : t.kind = t'.kind :=
  congrArg Prod.fst h

theorem text_of_bare (h : t.bare = t'.bare) : t.text = t'.text :=
  congrArg Prod.snd h

/-- Tokens that differ in their places only give the same name up to its span. -/
theorem nameOf_of_bare (h : t.bare = t'.bare) :
    (Parser.nameOf t).mapSpan nowhere = (Parser.nameOf t').mapSpan nowhere := by
  rw [Parser.nameOf, Parser.nameOf, text_of_bare h]
  rfl

end Token

/-- No token binds less than the least precedence of an expression. -/
theorem Kind.lowest_le_strength (k : Kind) : lowest ≤ k.strength := by
  cases k <;> decide

/-- The causes of the problems so far. -/
def Window.causes (w : Window) : List SyntaxCause :=
  w.problems.toList.map Problem.cause

/-- The same kind of phrase; the callee of a call is the same up to spans. -/
inductive Phrase.Alike : Phrase → Phrase → Prop
  | statement : Phrase.Alike .statement .statement
  | block : Phrase.Alike .block .block
  | expression (above : Nat) : Phrase.Alike (.expression above) (.expression above)
  | conditional : Phrase.Alike .conditional .conditional
  | call {callee callee' : Node} : callee.Alike nowhere callee' →
      Phrase.Alike (.call callee) (.call callee')

namespace Parser

variable {α α' β β' σ σ' : Type}

/-! ## Where a step has come to -/

/-- Where a step has come to: why it gave the parse up, if it did, and its window. -/
abbrev Stage := Option ParseStop × Window

/-- Where a step has come to that ended so. -/
def stage : EStateM.Result ParseStop Window α → Stage
  | .ok _ w => (none, w)
  | .error stop w => (some stop, w)

/-- What may come of a stage later. A parse that was given up stays so. -/
inductive Stage.Later : Stage → Stage → Prop
  | goesOn {w w' : Window} {stop : Option ParseStop} : w.Leads stop w' → Later (none, w) (stop, w')
  | ended (stop : ParseStop) (w : Window) : Later (some stop, w) (some stop, w)

theorem Stage.Later.refl : ∀ a : Stage, a.Later a
  | (none, w) => .goesOn (.refl w)
  | (some stop, w) => .ended stop w

/-- Whatever a step comes to, its window leads there. -/
theorem stage_leads (x : Parser α) [h : Along Window.Leads x] (w : Window) :
    w.Leads (stage (x w)).1 (stage (x w)).2 := by
  have hrun := h.run w
  unfold RunsAlong stop? after at hrun
  unfold stage
  cases hx : x w <;> · rw [hx] at hrun; exact hrun

/-- What a step comes to comes before what it comes to with another step behind it. -/
theorem stage_bind (x : Parser α) (f : α → Parser β) [∀ a, Along Window.Leads (f a)] (w : Window) :
    (stage (x w)).Later (stage ((x >>= f) w)) := by
  rw [bind_apply]
  cases x w with
  | ok a w' => exact .goesOn (stage_leads (f a) w')
  | error stop w' => exact .ended stop w'

variable {round : σ → Parser (σ ⊕ β)} {round' : σ' → Parser (σ' ⊕ β')}

/-- A loop of rounds leads on from its window, since each of the rounds does. -/
theorem Rounds.leads [∀ a, Along Window.Leads (round a)] {k : Nat} {a : σ} {w : Window}
    {r : EStateM.Result ParseStop Window β} (h : Rounds round k a w r) :
    w.Leads (stage r).1 (stage r).2 := by
  induction h with
  | ends hround => exact leads_of_ok hround
  | givenUp hround => exact leads_of_error hround
  | next hround _ ih => exact (leads_of_ok hround).trans ih

namespace Rounds

variable {k : Nat} {a : σ} {w w₁ : Window} {r : EStateM.Result ParseStop Window β}

/-- A loop whose first round ends it has come to what the round gives. -/
theorem eq_of_ends {b : β} (h : Rounds round k a w r) (hround : round a w = .ok (.inr b) w₁) :
    r = .ok b w₁ := by
  cases h with
  | ends hx => cases hx.symm.trans hround; rfl
  | givenUp hx => cases hx.symm.trans hround
  | next hx _ => cases hx.symm.trans hround

/-- A loop whose first round gives the parse up has come to that. -/
theorem eq_of_givenUp {stop : ParseStop} (h : Rounds round k a w r)
    (hround : round a w = .error stop w₁) : r = .error stop w₁ := by
  cases h with
  | ends hx => cases hx.symm.trans hround
  | givenUp hx => cases hx.symm.trans hround; rfl
  | next hx _ => cases hx.symm.trans hround

/-- Behind a first round that goes on the loop is the loop of the other rounds. -/
theorem of_next {a₁ : σ} (h : Rounds round k a w r) (hround : round a w = .ok (.inl a₁) w₁) :
    ∃ k₁, Rounds round k₁ a₁ w₁ r := by
  cases h with
  | ends hx => cases hx.symm.trans hround
  | givenUp hx => cases hx.symm.trans hround
  | next hx hrest =>
    cases hx.symm.trans hround
    exact ⟨_, hrest⟩

end Rounds

/-- The first round comes before the end of the loop. -/
theorem Rounds.later [∀ a, Along Window.Leads (round a)] {k : Nat} {a : σ} {w : Window}
    {r : EStateM.Result ParseStop Window β} (h : Rounds round k a w r) :
    (stage (round a w)).Later (stage r) := by
  cases h with
  | ends hround =>
    rw [hround]
    exact .refl _
  | givenUp hround =>
    rw [hround]
    exact .refl _
  | next hround hrest =>
    rw [hround]
    exact .goesOn hrest.leads

end Parser

open Ember.Parser

/-! ## Tandems -/

/-- How the windows of two parses are paired that run in tandem. -/
structure Tandem where
  /-- Both windows show the same two tokens. -/
  near : Window → Window → Prop
  /-- They are near, and still so when both move on. -/
  ready : Window → Window → Prop
  /-- Nothing is asked of parses that have come there. -/
  excused : Stage → Stage → Prop
  near_of_ready {w w' : Window} : ready w w' → near w w'
  ended {w w' : Window} : near w w' → w.Ended ∧ w'.Ended
  causes {w w' : Window} : near w w' → w.causes = w'.causes
  current {w w' : Window} : near w w' → w.current.bare = w'.current.bare
  next {w w' : Window} : near w w' → w.next.bare = w'.next.bare
  advance {w w' : Window} : ready w w' → near w.advance w'.advance
  note {w w' : Window} (cause : SyntaxCause) (t q t' q' : Token) : ready w w' →
    ready (w.note cause t q) (w'.note cause t' q')
  /-- Only a conditional may be where the texts part. -/
  settle {w w' : Window} : near w w' → w.current.kind ≠ .ifWord → ready w w'
  /-- A conditional is no clause of a loop. Behind that problem both parses go on inside it. -/
  astray {w w' : Window} : near w w' → ready w w' ∨ ∀ kind name,
    excused (none, w.note (.invalidClause kind name) w.current w.current)
      (none, w'.note (.invalidClause kind name) w'.current w'.current)
  persists {a a' b b' : Stage} : excused a a' → a.Later b → a'.Later b' → excused b b'

namespace Parser

/-- The same trees up to their spans. -/
abbrev Trees (ns ns' : Array Node) : Prop :=
  List.Forall₂ (Node.Alike nowhere) ns.toList ns'.toList

/-- The same names up to their spans. -/
abbrev Naming (xs xs' : Array Name) : Prop :=
  xs.toList.map (Name.mapSpan nowhere) = xs'.toList.map (Name.mapSpan nowhere)

/-! ### Where a conditional begins -/

section

variable {rules : Phrase → Parser Node} {w : Window} (hk : w.current.kind = .ifWord)

include hk

/-- A statement that begins with a conditional is an expression. -/
theorem statement_ifWord : statement rules w = expressionStatement rules w := by
  rw [statement, bind_apply, current_apply]
  simp only [hk]

/-- An operand that begins with a conditional is that conditional. -/
theorem operand_ifWord : operand rules w = conditional rules w := by
  rw [operand, bind_apply, current_apply]
  simp only [hk]

/-- A conditional is no clause of a counting loop, and is refused as one. -/
theorem clause_ifWord (name : String) : clause rules name w =
    .ok .missing (w.note (.invalidClause w.current.kind.name name) w.current w.current) := by
  rw [clause, bind_apply, current_apply]
  simp only [hk]
  rfl

end

/-- Names stay the same up to their spans when the same name is added to both. -/
theorem Naming.push {xs xs' : Array Name} (hxs : Naming xs xs') {t t' : Token}
    (ht : t.bare = t'.bare) : Naming (xs.push (nameOf t)) (xs'.push (nameOf t')) := by
  rw [Naming, Array.toList_push, Array.toList_push, List.map_append, List.map_append, hxs,
    List.map_singleton, List.map_singleton, Token.nameOf_of_bare ht]

/-- Trees stay the same up to their spans when trees that are alike are added to both. -/
theorem Trees.push {ns ns' : Array Node} (hns : Trees ns ns') {n n' : Node}
    (hn : n.Alike nowhere n') : Trees (ns.push n) (ns'.push n') := by
  rw [Trees, Array.toList_push, Array.toList_push]
  exact List.rel_append hns (.cons hn .nil)

end Parser

namespace Tandem

variable {α α' β β' σ σ' : Type}

/-- Both steps came to values and windows that are related, or gave the parse up for the same reason
with the same problems. -/
inductive Same (R : α → α' → Window → Window → Prop) :
    EStateM.Result ParseStop Window α → EStateM.Result ParseStop Window α' → Prop
  | ok {a : α} {a' : α'} {w w' : Window} : R a a' w w' → Same R (.ok a w) (.ok a' w')
  | error (stop : ParseStop) {w w' : Window} : w.causes = w'.causes →
      Same R (.error stop w) (.error stop w')

/-- The values are related, and so are the windows. -/
structure Both (S : α → α' → Prop) (Q : Window → Window → Prop) (a : α) (a' : α')
    (w w' : Window) : Prop where
  values : S a a'
  windows : Q w w'

/-- Any two values are related. -/
abbrev Any (_ : α) (_ : α') : Prop := True

/-- What a round of a loop goes on with, or ends the loop with, is related. -/
inductive Round (S : σ → σ' → Prop) (Q : Window → Window → Prop)
    (R : β → β' → Window → Window → Prop) : σ ⊕ β → σ' ⊕ β' → Window → Window → Prop
  | goesOn {a : σ} {a' : σ'} {w w' : Window} : S a a' → Q w w' → Round S Q R (.inl a) (.inl a') w w'
  | ends {b : β} {b' : β'} {w w' : Window} : R b b' w w' → Round S Q R (.inr b) (.inr b') w w'

namespace Same

variable {R : α → α' → Window → Window → Prop} {r' : EStateM.Result ParseStop Window α'}
  {w : Window}

/-- Where one of two results gives the parse up, the other one does so for the same reason. -/
theorem givenUp {stop : ParseStop} (h : Same R (.error stop w) r') :
    ∃ w', r' = .error stop w' ∧ w.causes = w'.causes := by
  cases h with
  | error stop hcauses => exact ⟨_, rfl, hcauses⟩

variable {S : σ → σ' → Prop} {Q : Window → Window → Prop} {R : β → β' → Window → Window → Prop}
  {r' : EStateM.Result ParseStop Window (σ' ⊕ β')}

/-- Where one of two rounds goes on, the other one does, with related states. -/
theorem goesOn {a : σ} (h : Same (Round S Q R) (.ok (.inl a) w) r') :
    ∃ a' w', r' = .ok (.inl a') w' ∧ S a a' ∧ Q w w' := by
  cases h with
  | ok h =>
    cases h with
    | goesOn ha hw => exact ⟨_, _, rfl, ha, hw⟩

/-- Where one of two rounds ends its loop, the other one does, with related results. -/
theorem ends {b : β} (h : Same (Round S Q R) (.ok (.inr b) w) r') :
    ∃ b' w', r' = .ok (.inr b') w' ∧ R b b' w w' := by
  cases h with
  | ok h =>
    cases h with
    | ends hb => exact ⟨_, _, rfl, hb⟩

end Same

variable (T : Tandem)

/-- Both steps end alike, unless they are excused. -/
def Ends (R : α → α' → Window → Window → Prop) (r : EStateM.Result ParseStop Window α)
    (r' : EStateM.Result ParseStop Window α') : Prop :=
  T.excused (stage r) (stage r') ∨ Same R r r'

/-- From windows that `P` relates both steps end alike, or are excused. -/
def Steps (P : Window → Window → Prop) (R : α → α' → Window → Window → Prop) (x : Parser α)
    (x' : Parser α') : Prop :=
  ∀ w w', P w w' → T.Ends R (x w) (x' w')

/-- The windows are ready, and the next token is of the given kind. -/
def readyAt (kind : Kind) (w w' : Window) : Prop :=
  T.ready w w' ∧ w.next.kind = kind

/-- Trees that are alike up to their spans, at ready windows. -/
abbrev Nodes : Node → Node → Window → Window → Prop :=
  Both (Node.Alike nowhere) T.ready

/-- How the windows are paired where a phrase begins. -/
def entry : Phrase → Window → Window → Prop
  | .statement | .conditional => T.near
  | .expression above => fun w w' => lowest ≤ above ∧ T.near w w'
  | .block | .call _ => T.ready

/-- The rules for the phrases inside do the same on both sides. -/
def Agree (self self' : Phrase → Parser Node) : Prop :=
  ∀ phrase phrase', phrase.Alike phrase' →
    T.Steps (T.entry phrase) T.Nodes (self phrase) (self' phrase')

/-- Where the texts part both parses come to the same conditional, or are excused. -/
def Meets (self self' : Phrase → Parser Node) : Prop :=
  ∀ w w', T.near w w' → T.ready w w' ∨
    T.Ends T.Nodes (Parser.conditional self w) (Parser.conditional self' w')

variable {T} {P P' Q : Window → Window → Prop} {S : α → α' → Prop}
  {R : β → β' → Window → Window → Prop}

/-- Two parses that end in step end in step with more steps behind them. -/
theorem Ends.bind {x : Parser α} {x' : Parser α'} {w w' : Window} {f : α → Parser β}
    {f' : α' → Parser β'} [∀ a, Along Window.Leads (f a)] [∀ a, Along Window.Leads (f' a)]
    (hx : T.Ends (Both S Q) (x w) (x' w')) (hf : ∀ a a', S a a' → T.Steps Q R (f a) (f' a')) :
    T.Ends R ((x >>= f) w) ((x' >>= f') w') := by
  rcases hx with hexcused | hsame
  · exact .inl (T.persists hexcused (stage_bind x f w) (stage_bind x' f' w'))
  rw [bind_apply, bind_apply]
  generalize x w = r at hsame ⊢
  generalize x' w' = r' at hsame ⊢
  cases hsame with
  | ok ha => exact hf _ _ ha.values _ _ ha.windows
  | error stop hcauses => exact .inr (.error stop hcauses)

/-- Both parses may move on again where the next token begins no conditional. -/
theorem advance_settled {w w' : Window} (hw : T.ready w w') (hk : w.next.kind ≠ .ifWord) :
    T.ready w.advance w'.advance :=
  T.settle (T.advance hw) (by rwa [Window.advance_current])

namespace Steps

variable {x y : Parser α} {x' y' : Parser α'} {z : Parser β} {z' : Parser β'}

/-- Steps in tandem from some windows are so from fewer windows. -/
theorem weaken (h : T.Steps P R z z') (hP : ∀ {w w'}, P' w w' → P w w') : T.Steps P' R z z' :=
  fun w w' hw => h w w' (hP hw)

/-- What is in step from near windows is so from windows that are ready to move on. -/
theorem ready (h : T.Steps T.near R z z') : T.Steps T.ready R z z' :=
  h.weaken T.near_of_ready

theorem readyAt {kind : Kind} (h : T.Steps T.ready R z z') : T.Steps (T.readyAt kind) R z z' :=
  h.weaken And.left

theorem pure {a : α} {a' : α'} (ha : S a a') : T.Steps P (Both S P) (Pure.pure a) (Pure.pure a') :=
  fun _ _ hw => .inr (.ok ⟨ha, hw⟩)

theorem throw (stop : ParseStop) :
    T.Steps T.near R (MonadExcept.throw stop) (MonadExcept.throw stop) :=
  fun _ _ hw => .inr (.error stop (T.causes hw))

/-- **Steps in tandem one after the other are in tandem.** The second ones may rely on what the
first ones came to. -/
theorem bind {f : α → Parser β} {f' : α' → Parser β'} [∀ a, Along Window.Leads (f a)]
    [∀ a, Along Window.Leads (f' a)] (hx : T.Steps P (Both S Q) x x')
    (hf : ∀ a a', S a a' → T.Steps Q R (f a) (f' a')) : T.Steps P R (x >>= f) (x' >>= f') :=
  fun w w' hw => (hx w w' hw).bind hf

/-- Choices in tandem choose the same side. -/
theorem ite {c c' : Prop} [Decidable c] [Decidable c'] (hc : c ↔ c') {x y : Parser β}
    {x' y' : Parser β'} (hx : T.Steps P R x x') (hy : T.Steps P R y y') :
    T.Steps P R (if c then x else y) (if c' then x' else y') := by
  by_cases h : c
  · rwa [if_pos h, if_pos (hc.1 h)]
  · rwa [if_neg h, if_neg fun h' => h (hc.2 h')]

/-- A step that leaves the window as it is. -/
theorem looks {f : α → Parser β} {f' : α' → Parser β'} [hx : Looks x] [hx' : Looks x']
    (hf : ∀ a a', T.Steps P R (f a) (f' a')) : T.Steps P R (x >>= f) (x' >>= f') := by
  intro w w' hw
  obtain ⟨a, ha⟩ := hx.run w
  obtain ⟨a', ha'⟩ := hx'.run w'
  rw [bind_apply, bind_apply, ha, ha']
  exact hf a a' w w' hw

/-- Steps that look at the current token look at the same one, places aside. -/
theorem current {f : Token → Parser β} {f' : Token → Parser β'}
    (hf : ∀ t t', t.bare = t'.bare → T.Steps T.ready R (f t) (f' t')) :
    T.Steps T.ready R (Parser.current >>= f) (Parser.current >>= f') :=
  fun w w' hw => hf w.current w'.current (T.current (T.near_of_ready hw)) w w' hw

/-- What is done with the next token may count on it. -/
theorem next {f : Token → Parser β} {f' : Token → Parser β'}
    (hf : ∀ t t', t.bare = t'.bare → T.Steps (T.readyAt t.kind) R (f t) (f' t')) :
    T.Steps T.ready R (Parser.next >>= f) (Parser.next >>= f') :=
  fun w w' hw => hf w.next w'.next (T.next (T.near_of_ready hw)) w w' ⟨hw, rfl⟩

variable {f : Unit → Parser β} {f' : Unit → Parser β'}

/-- A move over a token leaves the windows near, but perhaps not ready for the next one. -/
theorem advance (hf : T.Steps T.near R (f ()) (f' ())) :
    T.Steps T.ready R (Parser.advance >>= f) (Parser.advance >>= f') :=
  fun w w' hw => hf w.advance w'.advance (T.advance hw)

/-- Behind a move over a token that begins no conditional the windows are ready again. -/
theorem advanceAt (kind : Kind) (hk : kind ≠ .ifWord) (hf : T.Steps T.ready R (f ()) (f' ())) :
    T.Steps (T.readyAt kind) R (Parser.advance >>= f) (Parser.advance >>= f') :=
  fun w w' hw => hf w.advance w'.advance (advance_settled hw.1 (hw.2 ▸ hk))

/-- A problem noted on both sides leaves the windows ready; its places may differ. -/
theorem note (cause : SyntaxCause) (t q t' q' : Token) (hf : T.Steps T.ready R (f ()) (f' ())) :
    T.Steps T.ready R (modify (·.note cause t q) >>= f) (modify (·.note cause t' q') >>= f') :=
  fun _ _ hw => hf _ _ (T.note cause t q t' q' hw)

/-- The number of tokens ahead may differ. -/
theorem remaining {f : Nat → Parser β} {f' : Nat → Parser β'}
    (hf : ∀ w w', P w w' → T.Ends R (f w.ahead.length w) (f' w'.ahead.length w')) :
    T.Steps P R (Parser.remaining >>= f) (Parser.remaining >>= f') :=
  hf

/-- A test of the next token comes out the same on both sides. -/
theorem nextIs (kind : Kind) {x y : Parser β} {x' y' : Parser β'}
    (hx : T.Steps (T.readyAt kind) R x x') (hy : T.Steps T.ready R y y') :
    T.Steps T.ready R (do if ← nextIs kind then x else y)
      (do if ← nextIs kind then x' else y') := by
  intro w w' hw
  have hk := Token.kind_of_bare (T.next (T.near_of_ready hw))
  rw [nextIs_bind_apply, nextIs_bind_apply, ← hk]
  by_cases h : w.next.kind = kind
  · rw [if_pos h, if_pos h]
    exact hx w w' ⟨hw, h⟩
  · rw [if_neg h, if_neg h]
    exact hy w w' hw

/-- A token that has to be there is there on both sides or on neither. -/
theorem expect (kind : Kind) (hkind : kind ≠ .ifWord) {x y : Parser β} {x' y' : Parser β'}
    (hx : T.Steps T.ready R x x') (hy : T.Steps T.ready R y y') :
    T.Steps T.ready R (do if ← expect kind then x else y)
      (do if ← expect kind then x' else y') := by
  intro w w' hw
  have hk := Token.kind_of_bare (T.next (T.near_of_ready hw))
  rw [expect_bind_apply, expect_bind_apply, unexpected, unexpected, ← hk]
  by_cases h : w.next.kind = kind
  · rw [if_pos h, if_pos h]
    exact hx _ _ (advance_settled hw (h ▸ hkind))
  · rw [if_neg h, if_neg h]
    exact hy _ _ (T.note _ _ _ _ _ hw)

/-- What stands behind a token that has to be there is in tandem if the rest is. -/
theorem past (kind : Kind) (hkind : kind ≠ .ifWord) {more more' : Parser Node}
    (hmore : T.Steps T.ready T.Nodes more more') :
    T.Steps T.ready T.Nodes (past kind more) (past kind more') :=
  expect kind hkind hmore (.pure rfl)

/-- Where there is no conditional near windows are ready. -/
theorem near (hready : T.Steps T.ready R z z') (hif : ∀ w w', T.near w w' →
    w.current.kind = .ifWord → w'.current.kind = .ifWord → T.Ends R (z w) (z' w')) :
    T.Steps T.near R z z' := by
  intro w w' hw
  by_cases hk : w.current.kind = .ifWord
  · exact hif w w' hw hk ((Token.kind_of_bare (T.current hw)).symm.trans hk)
  · exact hready w w' (T.settle hw hk)

/-- Loops of related rounds end alike, however many rounds they take. -/
theorem rounds {round : σ → Parser (σ ⊕ β)} {round' : σ' → Parser (σ' ⊕ β')}
    {S : σ → σ' → Prop} [∀ a, Along Window.Leads (round a)] [∀ a, Along Window.Leads (round' a)]
    (hround : ∀ a a', S a a' → T.Steps Q (Round S Q R) (round a) (round' a'))
    {k k' : Nat} {a : σ} {a' : σ'} {w w' : Window} {r : EStateM.Result ParseStop Window β}
    {r' : EStateM.Result ParseStop Window β'} (h : Rounds round k a w r)
    (h' : Rounds round' k' a' w' r') (ha : S a a') (hw : Q w w') : T.Ends R r r' := by
  induction h generalizing k' a' w' r' with
  | ends hx =>
    rcases hround _ _ ha _ _ hw with hexcused | hsame
    · exact .inl (T.persists hexcused (Rounds.ends hx).later h'.later)
    rw [hx] at hsame
    obtain ⟨b', w₁', hx', hb⟩ := hsame.ends
    rw [h'.eq_of_ends hx']
    exact .inr (.ok hb)
  | givenUp hx =>
    rcases hround _ _ ha _ _ hw with hexcused | hsame
    · exact .inl (T.persists hexcused (Rounds.givenUp hx).later h'.later)
    rw [hx] at hsame
    obtain ⟨w₁', hx', hcauses⟩ := hsame.givenUp
    rw [h'.eq_of_givenUp hx']
    exact .inr (.error _ hcauses)
  | next hx hrest ih =>
    rcases hround _ _ ha _ _ hw with hexcused | hsame
    · exact .inl (T.persists hexcused (Rounds.next hx hrest).later h'.later)
    rw [hx] at hsame
    obtain ⟨a₁', w₁', hx', ha₁, hw₁⟩ := hsame.goesOn
    obtain ⟨k₁', hrest'⟩ := h'.of_next hx'
    exact ih hrest' ha₁ hw₁

end Steps

/-! ## Rules without phrases inside -/

theorem parameterRound {found found' : Array Name} (hf : Naming found found') :
    T.Steps T.ready (Round Naming T.ready (Both (Option.Rel Naming) T.ready))
      (parameterRound found) (parameterRound found') := by
  have hnone : T.Steps T.ready (Round Naming T.ready (Both (Option.Rel Naming) T.ready))
      (return .inr none) (return .inr none) := fun _ _ hw => .inr (.ok (.ends ⟨.none, hw⟩))
  unfold Parser.parameterRound
  refine .nextIs .comma (.advanceAt .comma nofun ?_) ?_
  · refine .expect .identifier nofun (.current fun t t' ht => ?_) hnone
    exact fun _ _ hw => .inr (.ok (.goesOn (hf.push ht) hw))
  · exact .expect .rightParen nofun (fun _ _ hw => .inr (.ok (.ends ⟨.some hf, hw⟩))) hnone

/-- The loops over further parameters end in step with the same names. -/
theorem moreParameters {found found' : Array Name} (hf : Naming found found') {w w' : Window}
    (hw : T.ready w w') :
    T.Ends (Both (Option.Rel Naming) T.ready) (moreParameters found (w.ahead.length + 1) w)
      (moreParameters found' (w'.ahead.length + 1) w') := by
  obtain ⟨hended, hended'⟩ := T.ended (T.near_of_ready hw)
  obtain ⟨k, -, h⟩ := isLoop_moreParameters.rounds hended (Nat.lt_succ_self _) found
  obtain ⟨k', -, h'⟩ := isLoop_moreParameters.rounds hended' (Nat.lt_succ_self _) found'
  exact Steps.rounds (fun _ _ => parameterRound) h h' hf hw

/-- Parameters are read in tandem, as the same names or not at all. -/
theorem parameters : T.Steps T.ready (Both (Option.Rel Naming) T.ready) parameters parameters := by
  unfold Parser.parameters
  refine .nextIs .rightParen (.advanceAt .rightParen nofun (.pure (.some rfl))) ?_
  refine .expect .identifier nofun (.current fun t t' ht => ?_) (.pure .none)
  refine .remaining fun w w' hw => moreParameters ?_ hw
  rw [Naming, List.map_singleton, List.map_singleton, Token.nameOf_of_bare ht]

/-- A semicolon behind a statement is passed on both sides or on neither. -/
theorem terminator : T.Steps T.ready (Both Any T.ready) terminator terminator := by
  unfold Parser.terminator
  refine .nextIs .semicolon (fun _ _ hw => ?_) (.pure trivial)
  exact .inr (.ok ⟨trivial, advance_settled hw.1 (hw.2 ▸ nofun)⟩)

/-! ## Rules over the phrases inside -/

section

variable {self self' : Phrase → Parser Node}

namespace Agree

variable (hself : T.Agree self self')

include hself

theorem statement : T.Steps T.near T.Nodes (self .statement) (self' .statement) :=
  hself _ _ .statement

theorem expression {above : Nat} (h : lowest ≤ above) :
    T.Steps T.near T.Nodes (self (.expression above)) (self' (.expression above)) :=
  (hself _ _ (.expression above)).weaken fun hw => ⟨h, hw⟩

theorem conditional : T.Steps T.near T.Nodes (self .conditional) (self' .conditional) :=
  hself _ _ .conditional

theorem block : T.Steps T.ready T.Nodes (self .block) (self' .block) :=
  hself _ _ .block

theorem call {c c' : Node} (hc : c.Alike nowhere c') :
    T.Steps T.ready T.Nodes (self (.call c)) (self' (.call c')) :=
  hself _ _ (.call hc)

end Agree

variable (hself : T.Agree self self')

include hself

/-- A round over the statements of a block finds the end of the block on both sides or adds a
statement on both. -/
theorem blockRound (opening opening' : Token) {found found' : Array Node}
    (hf : Trees found found') :
    T.Steps T.near (Round Trees T.near (Both Trees T.ready)) (blockRound self opening found)
      (blockRound self' opening' found') := by
  intro w w' hw
  have hkind := Token.kind_of_bare (T.current hw)
  unfold Parser.blockRound
  rw [bind_apply, bind_apply, current_apply, current_apply]
  dsimp only
  rw [← hkind]
  -- where the block ends there is no conditional, so the windows are ready
  by_cases hb : w.current.kind = .rightBrace
  · rw [if_pos hb, if_pos hb]
    exact .inr (.ok (.ends ⟨hf, T.settle hw (hb ▸ nofun)⟩))
  rw [if_neg hb, if_neg hb]
  by_cases he : w.current.kind = .endOfText
  · rw [if_pos he, if_pos he]
    have hready := T.settle hw (he ▸ nofun)
    exact .inr (.ok (.ends ⟨hf, T.note _ _ opening _ opening' hready⟩))
  rw [if_neg he, if_neg he]
  refine Steps.bind hself.statement (fun n n' hn => ?_) w w' hw
  refine .advance fun _ _ hw => .inr (.ok (.goesOn ?_ hw))
  rw [hn.isMissing]
  split
  · exact hf
  · exact hf.push hn

theorem signed : T.Steps T.ready T.Nodes (signed self) (signed self') := by
  unfold Parser.signed
  refine .current fun t t' ht => .advance ?_
  refine (hself.expression (by decide)).bind fun n n' hn => ?_
  refine .ite (by rw [hn.isMissing]) (.pure rfl) ?_
  rw [Token.text_of_bare ht]
  exact .looks fun _ _ => .pure (Node.Roots.unary _ rfl hn).alike

theorem grouped : T.Steps T.ready T.Nodes (grouped self) (grouped self') := by
  unfold Parser.grouped
  refine .advance ((hself.expression (Nat.le_refl lowest)).bind fun n n' hn => ?_)
  exact .past .rightParen nofun (.pure hn)

/-- A round over arguments ends with the closing parenthesis on both sides or adds an argument on
both. -/
theorem argumentRound {found found' : Array Node} (hf : Trees found found') :
    T.Steps T.ready (Round Trees T.ready (Both Trees T.ready)) (argumentRound self found)
      (argumentRound self' found') := by
  unfold Parser.argumentRound
  refine .nextIs .comma (.advanceAt .comma nofun (.advance ?_))
    fun _ _ hw => .inr (.ok (.ends ⟨hf, hw⟩))
  refine (hself.expression (Nat.le_refl lowest)).bind fun n n' hn => ?_
  exact fun _ _ hw => .inr (.ok (.goesOn (hf.push hn) hw))

theorem infixed {a a' : Node} (ha : a.Alike nowhere a') :
    T.Steps T.ready T.Nodes (infixed self a) (infixed self' a') := by
  unfold Parser.infixed
  refine .current fun t t' ht => .advance ?_
  rw [Token.kind_of_bare ht, Token.text_of_bare ht]
  refine (hself.expression t'.kind.lowest_le_strength).bind fun b b' hb => ?_
  refine .ite (by rw [hb.isMissing]) (.pure rfl) ?_
  exact .looks fun _ _ => .pure (Node.Roots.binary _ rfl ha hb).alike

/-- A round over operators stops on both sides or takes the same operator on both. -/
theorem operatorRound {above : Nat} (habove : lowest ≤ above) {a a' : Node}
    (ha : a.Alike nowhere a') :
    T.Steps T.ready (Round (Node.Alike nowhere) T.ready T.Nodes) (operatorRound self above a)
      (operatorRound self' above a') := by
  unfold Parser.operatorRound
  refine .next fun t t' ht => ?_
  rw [← Token.kind_of_bare ht, ha.isMissing]
  by_cases hstop : a'.isMissing = true ∨ t.kind.strength ≤ above
  · rw [if_pos hstop, if_pos hstop]
    exact fun _ _ hw => .inr (.ok (.ends ⟨ha, hw.1⟩))
  rw [if_neg hstop, if_neg hstop]
  have hk : t.kind ≠ .ifWord := by
    intro hk
    rw [hk] at hstop
    exact hstop (.inr habove)
  have hgoes : ∀ {b b' : Node}, b.Alike nowhere b' → T.Steps T.ready
      (Round (Node.Alike nowhere) T.ready T.Nodes) (return .inl b) (return .inl b') :=
    fun hb _ _ hw => .inr (.ok (.goesOn hb hw))
  refine .advanceAt _ hk ?_
  exact .ite .rfl ((hself.call ha).bind fun b b' hb => hgoes hb)
    ((infixed hself ha).bind fun b b' hb => hgoes hb)

/-- A declaration is read in tandem whatever ends it in tandem. -/
theorem declaration {finish : Parser Unit} [Along Window.Leads finish]
    (hfin : T.Steps T.ready (Both Any T.ready) finish finish) :
    T.Steps T.ready T.Nodes (declaration self finish) (declaration self' finish) := by
  unfold Parser.declaration
  refine .looks fun t t' => .past .identifier nofun (.current fun x x' hx => ?_)
  refine .past .assign nofun (.advance ?_)
  refine (hself.expression (Nat.le_refl lowest)).bind fun v v' hv => hfin.bind fun _ _ _ => ?_
  exact .looks fun _ _ => .pure (Node.Roots.declaration rfl (Token.nameOf_of_bare hx) hv).alike

/-- An assignment is read in tandem whatever ends it in tandem. -/
theorem assignment {finish : Parser Unit} [Along Window.Leads finish]
    (hfin : T.Steps T.ready (Both Any T.ready) finish finish) :
    T.Steps T.ready T.Nodes (assignment self finish) (assignment self' finish) := by
  unfold Parser.assignment
  refine .current fun t t' ht => .past .assign nofun (.advance ?_)
  refine (hself.expression (Nat.le_refl lowest)).bind fun v v' hv => hfin.bind fun _ _ _ => ?_
  exact .looks fun _ _ => .pure (Node.Roots.assignment rfl (Token.nameOf_of_bare ht) hv).alike

/-- An expression as a statement may begin where the texts part. -/
theorem expressionStatement :
    T.Steps T.near T.Nodes (expressionStatement self) (expressionStatement self') := by
  unfold Parser.expressionStatement
  refine .looks fun t t' => (hself.expression (Nat.le_refl lowest)).bind fun v v' hv => ?_
  refine .ite (by rw [hv.isMissing]) (.pure rfl) (terminator.bind fun _ _ _ => ?_)
  exact .looks fun _ _ => .pure (Node.Roots.expression rfl hv).alike

/-- A clause of a counting loop is read in tandem away from where the texts part. -/
theorem readyClause (name : String) :
    T.Steps T.ready T.Nodes (clause self name) (clause self' name) := by
  unfold Parser.clause
  refine .current fun t t' ht => ?_
  rw [Token.kind_of_bare ht]
  refine .ite .rfl (declaration hself (.pure trivial)) (.next fun u u' hu => ?_)
  rw [Token.kind_of_bare hu]
  refine .ite .rfl (assignment hself (.pure trivial)).readyAt (Steps.readyAt ?_)
  exact .note _ t t t' t' (.pure rfl)

/-- Where the texts part there is no clause of a loop. -/
theorem clause (name : String) : T.Steps T.near T.Nodes (clause self name) (clause self' name) := by
  refine (readyClause hself name).near fun w w' hw hk hk' => ?_
  rcases T.astray hw with hready | hastray
  · exact readyClause hself name w w' hready
  · rw [clause_ifWord hk, clause_ifWord hk', hk, hk']
    exact .inl (hastray _ name)

/-- Behind the consequence a conditional goes on with the same alternative. -/
theorem conditionalRest {t t' : Token} {c c' a a' : Node} (hc : c.Alike nowhere c')
    (ha : a.Alike nowhere a') :
    T.Steps T.ready T.Nodes (conditionalRest self t c a) (conditionalRest self' t' c' a') := by
  have hfinish : ∀ {b b' : Node}, b.Alike nowhere b' → T.Steps T.ready T.Nodes
      (do return .conditional (some (← spanFrom t)) c a b)
      (do return .conditional (some (← spanFrom t')) c' a' b') := fun hb =>
    .looks fun _ _ => .pure (Node.Roots.conditional rfl hc ha hb).alike
  unfold Parser.conditionalRest
  refine .nextIs .elseWord (.advanceAt .elseWord nofun (.nextIs .ifWord ?_ ?_)) (hfinish rfl)
  · refine (Steps.advance (hself.conditional.bind fun b b' hb => ?_)).readyAt
    refine .ite (by rw [hb.isMissing]) (.pure rfl) (hfinish ?_)
    exact (Node.Roots.block rfl (.cons (Node.Roots.expression rfl hb).alike .nil)).alike
  · exact .past .leftBrace nofun (hself.block.bind fun b b' hb => hfinish hb)

/-- Behind its clauses a counting loop goes on with the same body. -/
theorem forBody {t t' : Token} {i i' c c' p p' : Node} (hi : i.Alike nowhere i')
    (hc : c.Alike nowhere c') (hp : p.Alike nowhere p') :
    T.Steps T.ready T.Nodes (forBody self t i c p) (forBody self' t' i' c' p') := by
  unfold Parser.forBody
  refine .ite (by rw [hp.isMissing]) (.pure rfl) ?_
  refine .past .rightParen nofun (.past .leftBrace nofun (hself.block.bind fun b b' hb => ?_))
  exact .looks fun _ _ => .pure (Node.Roots.forLoop rfl hi hc hp hb).alike

variable [∀ phrase, Along Window.Leads (self phrase)] [∀ phrase, Along Window.Leads (self' phrase)]

/-- The loops over the statements of a block end in step with the same trees. -/
theorem blockStatements (opening opening' : Token) {w w' : Window} (hw : T.near w w') :
    T.Ends (Both Trees T.ready) (blockStatements self opening #[] (w.ahead.length + 1) w)
      (blockStatements self' opening' #[] (w'.ahead.length + 1) w') := by
  obtain ⟨hended, hended'⟩ := T.ended hw
  obtain ⟨-, hends, -, -⟩ : LoopsEnd self w := loopsEnd hended
  obtain ⟨-, hends', -, -⟩ : LoopsEnd self' w' := loopsEnd hended'
  obtain ⟨k, -, h⟩ := hends opening #[] _ (Nat.lt_succ_self _)
  obtain ⟨k', -, h'⟩ := hends' opening' #[] _ (Nat.lt_succ_self _)
  exact Steps.rounds (fun _ _ => blockRound hself opening opening') h h' .nil hw

theorem block : T.Steps T.ready T.Nodes (block self) (block self') := by
  unfold Parser.block
  refine .looks fun t t' => .advance (.remaining fun w w' hw => ?_)
  refine (blockStatements hself t t' hw).bind fun ns ns' hns => ?_
  exact .looks fun _ _ => .pure (Node.Roots.block rfl hns).alike

theorem conditional : T.Steps T.ready T.Nodes (conditional self) (conditional self') := by
  rw [conditional_eq, conditional_eq]
  refine .looks fun t t' => .past .leftParen nofun (.advance ?_)
  refine (hself.expression (Nat.le_refl lowest)).bind fun c c' hc => ?_
  refine .past .rightParen nofun (.past .leftBrace nofun (hself.block.bind fun a a' ha => ?_))
  exact conditionalRest hself hc ha

theorem function : T.Steps T.ready T.Nodes (function self) (function self') := by
  unfold Parser.function
  refine .looks fun t t' => .past .leftParen nofun ?_
  refine @Steps.bind _ _ _ _ _ _ _ _ _ _ _ _ _ (fun xs => ?_) (fun xs => ?_) parameters ?_
  · cases xs <;> infer_instance
  · cases xs <;> infer_instance
  intro xs xs' hxs
  cases hxs with
  | none => exact .pure rfl
  | some hxs =>
    refine .past .leftBrace nofun (hself.block.bind fun b b' hb => ?_)
    exact .looks fun _ _ => .pure (Node.Roots.function rfl hxs hb).alike

/-- The loops over further arguments end in step with the same trees. -/
theorem moreArguments {first first' : Node} (hn : first.Alike nowhere first') {w w' : Window}
    (hw : T.ready w w') :
    T.Ends (Both Trees T.ready) (moreArguments self #[first] w.ahead.length w)
      (moreArguments self' #[first'] w'.ahead.length w') := by
  obtain ⟨hended, hended'⟩ := T.ended (T.near_of_ready hw)
  obtain ⟨-, -, hends, -⟩ : LoopsEnd self w := loopsEnd hended
  obtain ⟨-, -, hends', -⟩ : LoopsEnd self' w' := loopsEnd hended'
  obtain ⟨k, -, h⟩ := hends #[first] _ (Nat.le_refl _)
  obtain ⟨k', -, h'⟩ := hends' #[first'] _ (Nat.le_refl _)
  exact Steps.rounds (fun _ _ => argumentRound hself) h h' (.cons hn .nil) hw

/-- Arguments are read in tandem, as the same trees or not at all. -/
theorem arguments :
    T.Steps T.ready (Both (Option.Rel Trees) T.ready) (arguments self) (arguments self') := by
  unfold Parser.arguments
  refine .nextIs .rightParen (.advanceAt .rightParen nofun (.pure (.some .nil))) (.advance ?_)
  refine (hself.expression (Nat.le_refl lowest)).bind fun n n' hn => .remaining fun w w' hw => ?_
  refine (moreArguments hself hn hw).bind fun ns ns' hns => ?_
  exact .expect .rightParen nofun (.pure (.some hns)) (.pure .none)

theorem call {c c' : Node} (hc : c.Alike nowhere c') :
    T.Steps T.ready T.Nodes (call self c) (call self' c') := by
  unfold Parser.call
  refine @Steps.bind _ _ _ _ _ _ _ _ _ _ _ _ _ (fun as => ?_) (fun as => ?_) (arguments hself) ?_
  · cases as <;> infer_instance
  · cases as <;> infer_instance
  intro as as' has
  cases has with
  | none => exact .pure rfl
  | some has => exact .looks fun _ _ => .pure (Node.Roots.call rfl hc has).alike

/-- The loops over the operators behind an operand end in step with the same tree. -/
theorem operators {above : Nat} (habove : lowest ≤ above) {a a' : Node} (ha : a.Alike nowhere a')
    {w w' : Window} (hw : T.ready w w') :
    T.Ends T.Nodes (operators self above a w.ahead.length w)
      (operators self' above a' w'.ahead.length w') := by
  obtain ⟨hended, hended'⟩ := T.ended (T.near_of_ready hw)
  obtain ⟨-, -, -, hends⟩ : LoopsEnd self w := loopsEnd hended
  obtain ⟨-, -, -, hends'⟩ : LoopsEnd self' w' := loopsEnd hended'
  obtain ⟨k, -, h⟩ := hends above a _ habove (Nat.le_refl _)
  obtain ⟨k', -, h'⟩ := hends' above a' _ habove (Nat.le_refl _)
  exact Steps.rounds (fun _ _ => operatorRound hself habove) h h' ha hw

theorem whileLoop : T.Steps T.ready T.Nodes (whileLoop self) (whileLoop self') := by
  unfold Parser.whileLoop
  refine .looks fun t t' => .past .leftParen nofun (.advance ?_)
  refine (hself.expression (Nat.le_refl lowest)).bind fun c c' hc => ?_
  refine .past .rightParen nofun (.past .leftBrace nofun (hself.block.bind fun b b' hb => ?_))
  exact .looks fun _ _ => .pure (Node.Roots.whileLoop rfl hc hb).alike

/-- Behind its first clause a counting loop goes on with the same condition, clause and body. -/
theorem forRest {t t' : Token} {i i' : Node} (hi : i.Alike nowhere i') :
    T.Steps T.ready T.Nodes (forRest self t i) (forRest self' t' i') := by
  unfold Parser.forRest
  refine .ite (by rw [hi.isMissing]) (.pure rfl) (.past .semicolon nofun (.advance ?_))
  refine (hself.expression (Nat.le_refl lowest)).bind fun c c' hc => ?_
  refine .past .semicolon nofun (.advance ((clause hself _).bind fun p p' hp => ?_))
  exact forBody hself hi hc hp

theorem forLoop : T.Steps T.ready T.Nodes (forLoop self) (forLoop self') := by
  rw [forLoop_eq, forLoop_eq]
  refine .looks fun t t' => .past .leftParen nofun (.advance ?_)
  exact (clause hself _).bind fun i i' hi => forRest hself hi

/-- A statement is read in tandem away from where the texts part. -/
theorem readyStatement : T.Steps T.ready T.Nodes (statement self) (statement self') := by
  unfold Parser.statement
  refine .current fun t t' ht => ?_
  rw [Token.kind_of_bare ht]
  split
  · exact declaration hself terminator
  · exact whileLoop hself
  · exact forLoop hself
  · exact .nextIs .assign (assignment hself terminator).readyAt (expressionStatement hself).ready
  · exact (expressionStatement hself).ready

/-- Where a statement may part the texts it begins with a conditional, and is read as an
expression. -/
theorem statement : T.Steps T.near T.Nodes (statement self) (statement self') := by
  refine (readyStatement hself).near fun w w' hw hk hk' => ?_
  rw [statement_ifWord hk, statement_ifWord hk']
  exact expressionStatement hself w w' hw

/-! ### Where the texts part -/

/-- An operand is read in tandem away from where the texts part. -/
theorem readyOperand : T.Steps T.ready T.Nodes (operand self) (operand self') := by
  unfold Parser.operand
  refine .current fun t t' ht => ?_
  rw [integerLiteral, integerLiteral, Token.kind_of_bare ht, Token.text_of_bare ht]
  split
  · exact .pure (Node.Roots.identifier _ rfl).alike
  · exact .ite .rfl (Steps.throw _).ready (.pure (Node.Roots.integer _ rfl).alike)
  · exact signed hself
  · exact signed hself
  · exact grouped hself
  · exact conditional hself
  · exact function hself
  · exact .note _ t t t' t' (.pure rfl)
  · exact .note _ t t t' t' (.pure rfl)

variable (hmeets : T.Meets self self')

include hmeets

/-- Where a conditional parts the texts, the tandem itself keeps both parses in step. -/
theorem nearConditional :
    T.Steps T.near T.Nodes (Parser.conditional self) (Parser.conditional self') := by
  intro w w' hw
  rcases hmeets w w' hw with hready | hends
  · exact conditional hself w w' hready
  · exact hends

/-- Where an operand may part the texts it is a conditional. -/
theorem operand : T.Steps T.near T.Nodes (operand self) (operand self') := by
  refine (readyOperand hself).near fun w w' hw hk hk' => ?_
  rw [operand_ifWord hk, operand_ifWord hk']
  exact nearConditional hself hmeets w w' hw

/-- An expression is read in tandem, its first operand also where the texts part. -/
theorem expression {above : Nat} (habove : lowest ≤ above) :
    T.Steps T.near T.Nodes (expression self above) (expression self' above) := by
  unfold Parser.expression
  refine (operand hself hmeets).bind fun a a' ha => .remaining fun w w' hw => ?_
  exact operators hself habove ha hw

end

/-- **From near windows every rule does the same**, up to places, unless it is excused. -/
theorem agree (hmeets : ∀ depth, T.Meets (parsePhrase depth) (parsePhrase depth))
    (depth : Nat) : T.Agree (parsePhrase depth) (parsePhrase depth) := by
  -- statements and expressions stand two levels further in, the others one
  induction depth using Nat.strongRecOn with
  | ind depth ih =>
    intro phrase phrase' hp
    rcases depth with _ | _ | depth
    · cases hp with
      | statement => exact .throw .tooDeep
      | expression above => exact (Steps.throw .tooDeep).weaken And.right
      | block => exact (Steps.throw .tooDeep).ready
      | conditional => exact .throw .tooDeep
      | call hc => exact (Steps.throw .tooDeep).ready
    · have hself := ih 0 (by omega)
      cases hp with
      | statement => exact .throw .tooDeep
      | expression above => exact (Steps.throw .tooDeep).weaken And.right
      | block => exact block hself
      | conditional => exact nearConditional hself (hmeets 0)
      | call hc => exact call hself hc
    · have hself := ih (depth + 1) (by omega)
      have hself' := ih depth (by omega)
      cases hp with
      | statement => exact statement hself'
      | expression above =>
        exact fun w w' hw => expression hself' (hmeets depth) hw.1 w w' hw.2
      | block => exact block hself
      | conditional => exact nearConditional hself (hmeets (depth + 1))
      | call hc => exact call hself hc

end Tandem

end Ember

import Ember.Proofs.Eval.Blame
import Ember.Proofs.Grammar.Nested
import Ember.Proofs.Session.Ends
import Ember.Proofs.Token.Exact
import Mathlib.Data.List.Nodup

/-!
# The line that a failure quotes

A failure points at a node of some source of the session, for functions bring their bodies from
one source to another. The line that it quotes is looked up in the source of the call that
failed (`Heap.Visited.quotes`). So the line is the one pointed at where the node is of that
source, and elsewhere it is the line of the same number in another text
(`Heap.quotes_other_source`).
-/

namespace Ember

/-- The span is one between the tokens of one of the sources. -/
def BetweenSome (ss : List Source) (span : Span) : Prop :=
  ∃ s ∈ ss, Between s.tokens span

/-- The diagnostic of a failure. -/
def Outcome.failure? : Outcome → Option Diagnostic
  | failed _ d => some d
  | _ => none

/-- A failure that quotes a line is one that had quoted none, at the same place. -/
theorem Outcome.quoting_failed {o : Outcome} {s : Source} {cause : RuntimeCause} {d : Diagnostic}
    (h : o.quoting s = .failed cause d) :
    ∃ d₀, o = .failed cause d₀ ∧ d.span = d₀.span ∧
      (d₀.sourceLine = none → ∀ span ∈ d.span, d.sourceLine = s.line? span.start.line) := by
  cases o with
  | rejected ds => cases h
  | finished v => cases h
  | failed cause₀ d₀ =>
    obtain ⟨rfl, rfl⟩ := Outcome.failed.inj h
    refine ⟨d₀, rfl, rfl, fun hnone span hspan => ?_⟩
    have hspan₀ : d₀.span = some span := hspan
    simp only [hnone, hspan₀]

namespace Heap

variable {h : Heap} {f : FrameId} {s : Source} {ss : List Source} {limits : Limits} {rounds : Nat}
  {P : Span → Prop} {cause : RuntimeCause} {d : Diagnostic}

/-- The heaps of a session, with the sources that were evaluated so far, in order. Each call may
be in any frame, use limits of its own, be refused, fail, or be given up after some rounds of a
loop. -/
inductive Visited : List Source → Heap → Prop
  | initial : Visited [] initial
  | evaluate {ss : List Source} {h : Heap} (f : FrameId) (s : Source) (limits : Limits)
      (rounds : Nat) : Visited ss h → Visited (ss ++ [s]) (h.evaluate f s limits rounds).2

/-- Where all spans have a property, a program leaves such spans behind, and fails at one,
with no line quoted yet. -/
theorem run_blames (f : FrameId) (limit : Int) (rounds : Nat) {p : Program}
    (hh : h.Holds (Value.Placed P)) (hp : p.toNode.Placed P) :
    (h.run f p limit rounds).2.Holds (Value.Placed P) ∧
      ∀ cause d, (h.run f p limit rounds).1 = .ok (.failed cause d) →
        SpanPlaced P d.span ∧ d.sourceLine = none := by
  unfold run
  cases depthBudget limit with
  | error fault => exact ⟨hh, nofun⟩
  | ok depth =>
    have hblames := program_blames rounds depth f hp h hh
    dsimp only
    cases hrun : evalNode rounds depth p.toNode f h with
    | ok v h' =>
      rw [hrun] at hblames
      exact ⟨hblames.2, nofun⟩
    | error stop h' =>
      rw [hrun] at hblames
      refine ⟨?_, ?_⟩
      · cases stop <;> exact hblames.2
      · rintro cause d hd
        cases stop with
        | failed cause span =>
          cases hd
          exact ⟨hblames.1, rfl⟩
        | tooDeep =>
          cases hd
          exact ⟨(Node.placed_program.1 hp).1, rfl⟩
        | fault fault => cases hd

/-- A call leaves spans of its source and of those before it behind, and fails at such a span;
the line that it quotes is one of its own source. -/
theorem evaluate_blames (f : FrameId) (s : Source) (limits : Limits) (rounds : Nat)
    (hh : h.Holds (Value.Placed P)) (hP : ∀ span, Between s.tokens span → P span) :
    (h.evaluate f s limits rounds).2.Holds (Value.Placed P) ∧
      ∀ cause d, Evaluated.result (h.evaluate f s limits rounds).1 = .ok (.failed cause d) →
        ∀ span ∈ d.span, P span ∧ d.sourceLine = s.line? span.start.line := by
  cases hparse : s.parse limits with
  | error fault =>
    rw [evaluate, hparse]
    refine ⟨hh, fun cause d hd => ?_⟩
    have hfault : (.error fault : Except Fault Outcome) = .ok (.failed cause d) := hd
    cases hfault
  | ok p =>
    by_cases hp : p.problems = #[]
    · have hplaced : p.program.toNode.Placed P := (Source.parse_between hparse).mono hP
      obtain ⟨hleft, hfails⟩ := run_blames f limits.depth rounds hh hplaced
      rw [evaluate_of_no_problems h f rounds hparse hp]
      refine ⟨hleft, fun cause d hd span hspan => ?_⟩
      change (h.run f p.program limits.depth rounds).1.map (Outcome.quoting s) =
        .ok (.failed cause d) at hd
      cases hrun : (h.run f p.program limits.depth rounds).1 with
      | error fault =>
        rw [hrun] at hd
        cases hd
      | ok o =>
        rw [hrun] at hd
        obtain ⟨d₀, rfl, hsame, hquotes⟩ := Outcome.quoting_failed (Except.ok.inj hd)
        obtain ⟨hplace, hnone⟩ := hfails cause d₀ hrun
        exact ⟨hplace span (hsame ▸ hspan), hquotes hnone span hspan⟩
    · rw [evaluate_of_problems h f rounds hparse hp]
      refine ⟨hh, fun cause d hd => ?_⟩
      have hrejected : (.ok (.rejected (p.diagnostics s)) : Except Fault Outcome) =
        .ok (.failed cause d) := hd
      cases hrejected

/-- Spans of some sources are also spans of these and one more. -/
theorem Holds.betweenSome_append (hh : h.Holds (Value.Placed (BetweenSome ss))) (s : Source) :
    h.Holds (Value.Placed (BetweenSome (ss ++ [s]))) := by
  refine hh.mono fun v hv => Value.Placed.mono hv fun span hspan => ?_
  obtain ⟨s', hs', hbetween⟩ := hspan
  exact ⟨s', List.mem_append_left _ hs', hbetween⟩

theorem betweenSome_last {span : Span} (hspan : Between s.tokens span) :
    BetweenSome (ss ++ [s]) span :=
  ⟨s, List.mem_append_right _ (List.mem_singleton_self s), hspan⟩

/-- All spans in the functions of a session are of its sources. -/
theorem Visited.holds (hv : Visited ss h) : h.Holds (Value.Placed (BetweenSome ss)) := by
  induction hv with
  | initial => exact holds_initial
  | @evaluate ss h f s limits rounds _ ih =>
    have hmore := ih.betweenSome_append s
    exact (evaluate_blames f s limits rounds hmore fun _ => betweenSome_last).1

/-- **A failure points into a source of the session, and quotes the call's own.** Where the
sources have names of their own, the source that it points into is known by the name, and the
line is quoted rightly if that is the source of the call. -/
theorem Visited.quotes (hv : Visited ss h) (hnames : ((ss ++ [s]).map Source.file).Nodup)
    (hfails : Evaluated.result (h.evaluate f s limits rounds).1 = .ok (.failed cause d))
    {span : Span} (hspan : d.span = some span) :
    ∃ s' ∈ ss ++ [s], Between s'.tokens span ∧
      (∀ u ∈ ss ++ [s], u.file = span.start.file ↔ u = s') ∧
      d.sourceLine = s.line? span.start.line ∧
      (span.start.file = s.file → d.sourceLine = s'.line? span.start.line) := by
  have hblames := (evaluate_blames f s limits rounds (hv.holds.betweenSome_append s) fun _ =>
    betweenSome_last).2 cause d hfails span hspan
  obtain ⟨⟨s', hs', hbetween⟩, hquotes⟩ := hblames
  have hfile : span.start.file = s'.file := by
    obtain ⟨t, ht, u, -, rfl⟩ := hbetween
    exact Source.file_of_mem_tokens ht
  have hunique : ∀ u ∈ ss ++ [s], u.file = span.start.file ↔ u = s' := by
    intro u hu
    rw [hfile]
    exact ⟨fun hsame => List.inj_on_of_nodup_map hnames hu hs' hsame, fun heq => heq ▸ rfl⟩
  refine ⟨s', hs', hbetween, hunique, hquotes, fun hown => ?_⟩
  obtain rfl : s = s' := (hunique s (by simp)).1 hown.symm
  exact hquotes

/-- A function that fails when it is called, on the second line of its source. -/
def failingFunction : Source :=
  { text := "let f = function() \x7b\n  missing\n\x7d;", file := some "a" }

/-- A call of it on the second line of another source. -/
def failingCall : Source :=
  { text := "let x = 1;\nx + f()", file := some "b" }

/-- The heap with the function. -/
def withFunction : Heap :=
  (initial.evaluate globalFrame failingFunction {} 0).2

theorem visited_withFunction : Visited [failingFunction] withFunction :=
  .evaluate globalFrame failingFunction {} 0 .initial

/-- Where the name stands that the call of the function does not find. -/
def missingName : Span :=
  ⟨⟨2, 3, 23, some "a"⟩, ⟨2, 10, 30, some "a"⟩⟩

/-- What the call reports. -/
def failingReport : Diagnostic :=
  (RuntimeCause.undefined "missing").diagnostic (some missingName) (some "x + f()")

theorem failingCall_fails :
    ∃ cause, Evaluated.result (withFunction.evaluate globalFrame failingCall {} 0).1 =
      .ok (.failed cause failingReport) := by
  have hrun : (Evaluated.result (withFunction.evaluate globalFrame failingCall {} 0).1).toOption.map
      Outcome.failure? = some (some failingReport) := by decide +kernel
  obtain ⟨o, ho, hfailure⟩ := ok_of_toOption hrun
  cases o with
  | failed cause d =>
    obtain rfl : d = failingReport := Option.some.inj hfailure
    exact ⟨cause, ho⟩
  | rejected ds => cases hfailure
  | finished v => cases hfailure

theorem quotes_failingCall : ∃ s ∈ [failingFunction, failingCall], Between s.tokens missingName ∧
    s = failingFunction ∧ failingReport.sourceLine = failingCall.line? 2 := by
  obtain ⟨cause, hfails⟩ := failingCall_fails
  have hspan : failingReport.span = some missingName := rfl
  obtain ⟨s, hs, hbetween, hnamed, hquotes, -⟩ :=
    visited_withFunction.quotes (by decide) hfails hspan
  have hsource : failingFunction = s := (hnamed failingFunction (by simp)).1 rfl
  exact ⟨s, hs, hbetween, hsource.symm, hquotes⟩

/-- **A failure may quote a line of another source than the one that it points into.** -/
theorem quotes_other_source : ¬ ∀ (ss : List Source) (h : Heap) (f : FrameId) (s : Source)
    (limits : Limits) (rounds : Nat) (cause : RuntimeCause) (d : Diagnostic) (span : Span),
    Visited ss h → ((ss ++ [s]).map Source.file).Nodup →
      Evaluated.result (h.evaluate f s limits rounds).1 = .ok (.failed cause d) →
      d.span = some span →
      ∀ u ∈ ss ++ [s], u.file = span.start.file → d.sourceLine = u.line? span.start.line := by
  intro hpoints
  obtain ⟨cause, hfails⟩ := failingCall_fails
  have hquotes := hpoints _ _ _ failingCall _ _ cause _ missingName visited_withFunction (by decide)
    hfails rfl failingFunction (by simp) rfl
  exact absurd hquotes (by decide +kernel)

end Heap

end Ember

import Ember.Proofs.Eval.Bounds
import Ember.Proofs.Eval.Safe
import Ember.Proofs.Grammar.Program
import Mathlib.Data.Nat.Find

/-!
# How calls end

A session evaluates sources one after the other against one heap. Wherever a session has
come to, a call that does not loop for ever returns an answer about the program, and
never breaks: `Heap.Reached.evaluate_settled`.
-/

namespace Ember

/-- The codes of what is wrong with a text. -/
def SyntaxCause.codes : List String := ["E101", "E102", "E103", "E104", "E105", "E106"]

/-- The codes of what stops an evaluation. -/
def RuntimeCause.codes : List String := ["E401", "E402", "E403", "E404", "E405", "E406"]

theorem SyntaxCause.code_mem (c : SyntaxCause) : c.code ∈ codes := by
  cases c <;> simp [code, codes]

theorem RuntimeCause.code_mem (c : RuntimeCause) : c.code ∈ codes := by
  cases c <;> simp [code, codes]

theorem Parsed.code_mem {p : Parsed} {s : Source} {d : Diagnostic} (h : d ∈ p.diagnostics s) :
    d.code ∈ SyntaxCause.codes := by
  obtain ⟨problem, -, rfl⟩ := List.mem_map.1 h
  exact problem.cause.code_mem

/-- The limits can be put in force, and no integer literal of the source is too long. -/
structure Limits.Admit (limits : Limits) (s : Source) : Prop where
  problems : 1 ≤ limits.problems
  depth : limits.depth ≤ maxDepthLimit
  literals : Readable s.tokens

/-- An evaluation has come to an end: it failed for a reason that the program is to
blame for, or it gave a whole value or none. -/
inductive Outcome.Ended : Outcome → Prop
  | failed {cause : RuntimeCause} {d : Diagnostic} (hc : d.code = cause.code)
      (hm : d.code ∈ RuntimeCause.codes) (hk : cause.Known) : Ended (.failed cause d)
  | finished {v : Option Value} (hv : ∀ w ∈ v, w.Whole) : Ended (.finished v)

theorem Outcome.Ended.quoting {o : Outcome} (h : o.Ended) (s : Source) : (o.quoting s).Ended := by
  cases h with
  | failed hc hm hk => exact .failed hc hm hk
  | finished hv => exact .finished hv

/-- The evaluation has come to an end, or was given up for its loops. -/
def EndedOrEndless : Except Fault Outcome → Prop
  | .ok o => o.Ended
  | .error fault => fault = .endless

/-- What a call answers, and what it does to the heap `h`, after the parse `p`: a source
with problems is rejected, and nothing changes; another one is evaluated to an end. -/
inductive Settled (p : Parsed) (h : Heap) : Outcome → Heap → Prop
  | rejected {ds : List Diagnostic} (hp : p.problems ≠ #[]) (hne : ds ≠ [])
      (hc : ∀ d ∈ ds, d.code ∈ SyntaxCause.codes) : Settled p h (.rejected ds) h
  | evaluated {o : Outcome} {h' : Heap} (hp : p.problems = #[]) (ho : o.Ended) : Settled p h o h'

namespace Heap

variable {h : Heap} {f : FrameId} {s : Source} {limits : Limits} {p : Parsed} {rounds : Nat}

/-! ## Evaluating a program -/

/-- A program of whole statements comes to an end or is given up for its loops, and
leaves whole functions behind. -/
theorem run_safe (f : FrameId) (rounds : Nat) {program : Program} {limit : Int}
    (hd : limit ≤ maxDepthLimit) (hh : h.Whole)
    (hns : ∀ n ∈ program.statements, Ember.Whole .statement n) :
    EndedOrEndless (h.run f program limit rounds).1 ∧ (h.run f program limit rounds).2.Whole := by
  have hsafe := program_safe rounds (max 1000 limit).toNat program.span f hns h hh
  unfold run
  rw [depthBudget_eq, if_neg (Int.not_lt.2 hd)]
  simp only [Program.toNode]
  cases hrun : evalNode rounds (max 1000 limit).toNat (.program program.span program.statements)
      f h with
  | ok v h' =>
    rw [hrun] at hsafe
    exact ⟨.finished hsafe.1, hsafe.2⟩
  | error stop h' =>
    rw [hrun] at hsafe
    cases stop with
    | failed cause span => exact ⟨.failed rfl cause.code_mem hsafe.1, hsafe.2⟩
    | tooDeep => exact ⟨.failed rfl RuntimeCause.tooDeep.code_mem trivial, hsafe.2⟩
    | fault fault => exact hsafe

/-- More rounds change no evaluation of a program that comes to an end. -/
theorem run_extends {program : Program} {limit : Int} {rounds' : Nat} (hr : rounds ≤ rounds') :
    (h.run f program limit rounds).1 = .error .endless ∨
      h.run f program limit rounds' = h.run f program limit rounds := by
  unfold run
  cases depthBudget limit with
  | error fault => exact .inr rfl
  | ok depth =>
    rcases program_extends (.inr ⟨hr, rfl⟩) (.inl (Eq.refl depth)) program.span program.statements f
      h with ⟨h', hrun⟩ | hrun
    · refine .inl ?_
      simp only [Program.toNode, hrun]
    · refine .inr ?_
      simp only [Program.toNode, hrun]

/-- Evaluation of a program is given up however many rounds a loop may make, or from
some number of rounds on always comes to the same. -/
theorem run_endless_or (h : Heap) (f : FrameId) (program : Program) (limit : Int) :
    (∀ rounds, (h.run f program limit rounds).1 = .error .endless) ∨
      ∃ least, (h.run f program limit least).1 ≠ .error .endless ∧
        (∀ rounds < least, (h.run f program limit rounds).1 = .error .endless) ∧
        ∀ rounds ≥ least, h.run f program limit rounds = h.run f program limit least := by
  by_cases hex : ∃ rounds, (h.run f program limit rounds).1 ≠ .error .endless
  · -- the least number of rounds that is enough
    classical
    have hspec := Nat.find_spec hex
    refine .inr ⟨Nat.find hex, hspec, ?_, ?_⟩
    · intro rounds hlt
      exact Decidable.not_not.1 (Nat.find_min hex hlt)
    · intro rounds hge
      exact (run_extends hge).resolve_left hspec
  · exact .inl fun rounds => Classical.not_not.1 (not_exists.1 hex rounds)

/-! ## Evaluating a source -/

/-- A source with problems is rejected, and nothing changes. -/
theorem evaluate_of_problems (h : Heap) (f : FrameId) (rounds : Nat)
    (hparse : s.parse limits = .ok p) (hp : p.problems ≠ #[]) :
    h.evaluate f s limits rounds = (.ok ⟨p, .ok (.rejected (p.diagnostics s))⟩, h) := by
  unfold evaluate
  rw [hparse]
  simp [hp]

/-- A source without problems is evaluated. -/
theorem evaluate_of_no_problems (h : Heap) (f : FrameId) (rounds : Nat)
    (hparse : s.parse limits = .ok p) (hp : p.problems = #[]) :
    h.evaluate f s limits rounds =
      (.ok ⟨p, (h.run f p.program limits.depth rounds).1.map (Outcome.quoting s)⟩,
        (h.run f p.program limits.depth rounds).2) := by
  unfold evaluate
  rw [hparse]
  simp [hp]

/-- More rounds change no evaluation of a source that comes to an end. -/
theorem evaluate_extends {rounds' : Nat} (hr : rounds ≤ rounds') :
    Evaluated.result (h.evaluate f s limits rounds).1 = .error .endless ∨
      h.evaluate f s limits rounds' = h.evaluate f s limits rounds := by
  cases hparse : s.parse limits with
  | error fault => exact .inr (by simp only [evaluate, hparse])
  | ok p =>
    by_cases hp : p.problems = #[]
    · have hextends : (h.run f p.program limits.depth rounds).1 = .error .endless ∨
          h.run f p.program limits.depth rounds' = h.run f p.program limits.depth rounds :=
        run_extends hr
      simp only [evaluate_of_no_problems h f _ hparse hp]
      rcases hextends with hendless | hsame
      · rw [hendless]
        exact .inl rfl
      · rw [hsame]
        exact .inr rfl
    · exact .inr (by simp only [evaluate_of_problems h f _ hparse hp])

/-- A source that is parsed leaves whole functions behind, also where it is given up. -/
theorem evaluate_whole (f : FrameId) (rounds : Nat) (hl : 1 ≤ limits.problems)
    (hd : limits.depth ≤ maxDepthLimit) (hh : h.Whole) (hparse : s.parse limits = .ok p) :
    (h.evaluate f s limits rounds).2.Whole := by
  by_cases hp : p.problems = #[]
  · rw [evaluate_of_no_problems h f rounds hparse hp]
    exact (run_safe f rounds hd hh (Source.parse_whole hl hparse hp)).2
  · rw [evaluate_of_problems h f rounds hparse hp]
    exact hh

/-- A source that is parsed is given up however many rounds a loop may make, or there is a number
of rounds from which on it comes to the same end. -/
theorem evaluate_ends (f : FrameId) (hl : 1 ≤ limits.problems) (hd : limits.depth ≤ maxDepthLimit)
    (hh : h.Whole) (hparse : s.parse limits = .ok p) :
    (∀ rounds, (h.evaluate f s limits rounds).1 = .ok ⟨p, .error .endless⟩) ∨
      ∃ least o h', (∀ rounds < least,
          (h.evaluate f s limits rounds).1 = .ok ⟨p, .error .endless⟩) ∧
        (∀ rounds ≥ least, h.evaluate f s limits rounds = (.ok ⟨p, .ok o⟩, h')) ∧
        Settled p h o h' ∧ h'.Whole := by
  by_cases hp : p.problems = #[]
  · have hsafe := fun rounds =>
      run_safe (h := h) f rounds hd hh (Source.parse_whole hl hparse hp)
    simp only [evaluate_of_no_problems h f _ hparse hp]
    rcases run_endless_or h f p.program limits.depth with hnever | ⟨least, hne, hlt, hge⟩
    · refine .inl fun rounds => ?_
      rw [hnever rounds]
      rfl
    -- what is not given up has come to an end
    obtain ⟨hends, hwhole⟩ := hsafe least
    cases hrun : (h.run f p.program limits.depth least).1 with
    | error fault =>
      rw [hrun] at hends hne
      exact absurd (congrArg Except.error hends) hne
    | ok o =>
      rw [hrun] at hends
      refine .inr ⟨least, o.quoting s, (h.run f p.program limits.depth least).2,
        fun rounds hr => ?_, fun rounds hr => ?_,
        .evaluated hp (Outcome.Ended.quoting hends s), hwhole⟩
      · rw [hlt rounds hr]
        rfl
      · rw [hge rounds hr, hrun]
        rfl
  · have hne : p.diagnostics s ≠ [] := by simp [Parsed.diagnostics, hp]
    exact .inr ⟨0, _, h, nofun, fun rounds _ => evaluate_of_problems h _ rounds hparse hp,
      .rejected hp hne fun d hd => Parsed.code_mem hd, hh⟩

/-- The heaps of a session: nothing is there at first, and each call may use limits of
its own. A call may also be given up after some rounds of a loop. -/
inductive Reached : Heap → Prop
  | initial : Reached initial
  | evaluate {h : Heap} {s : Source} {limits : Limits} (rounds : Nat) (hh : Reached h)
      (ha : limits.Admit s) : Reached (h.evaluate globalFrame s limits rounds).2

/-- **All functions of a session are whole.** -/
theorem Reached.whole (hh : h.Reached) : h.Whole := by
  induction hh with
  | initial => exact whole_initial
  | @evaluate h s limits rounds _ ha ih =>
    obtain ⟨p, hparse⟩ := s.parse_ok ha.depth ha.literals
    exact evaluate_whole globalFrame rounds ha.problems ha.depth ih hparse

/-- **A call returns an answer about the program, unless it loops for ever.** However
many rounds it is given, it is given up after them; or there is a number of rounds from
which on it always returns the same. -/
theorem Reached.evaluate_settled (hh : h.Reached) (ha : limits.Admit s) :
    ∃ p, s.parse limits = .ok p ∧
      (p.problems = #[] → ∀ n ∈ p.program.statements, Ember.Whole .statement n) ∧
      h.Whole ∧
      ((∀ rounds, (h.evaluate globalFrame s limits rounds).1 = .ok ⟨p, .error .endless⟩) ∨
        ∃ least o h', (∀ rounds < least,
            (h.evaluate globalFrame s limits rounds).1 = .ok ⟨p, .error .endless⟩) ∧
          (∀ rounds ≥ least, h.evaluate globalFrame s limits rounds = (.ok ⟨p, .ok o⟩, h')) ∧
          Settled p h o h') := by
  obtain ⟨p, hparse⟩ := s.parse_ok ha.depth ha.literals
  refine ⟨p, hparse, Source.parse_whole ha.problems hparse, hh.whole, ?_⟩
  rcases evaluate_ends globalFrame ha.problems ha.depth hh.whole hparse with
    hnever | ⟨least, o, h', hlt, hge, hsettled, -⟩
  · exact .inl hnever
  · exact .inr ⟨least, o, h', hlt, hge, hsettled⟩

/-- A session in which a function was declared. -/
def sample : Heap :=
  (initial.evaluate globalFrame { text := "let twice = function(f, x) { f(f(x)); };" } {} 0).2

/-- A call of that function, which divides by zero two calls further in. -/
def sampleCall : Source :=
  { text := "twice(function(x) { x / 0 }, 7)" }

theorem evaluate_settled_sample : ∃ p o h', sampleCall.parse = .ok p ∧ Settled p sample o h' ∧
    (∀ rounds, sample.evaluate globalFrame sampleCall {} rounds = (.ok ⟨p, .ok o⟩, h')) ∧
    o.diagnostics.map Diagnostic.code = ["E403"] := by
  have hreached : sample.Reached :=
    .evaluate 0 .initial ⟨by decide, by decide, by decide +kernel⟩
  have hcode : (Evaluated.result (sample.evaluate globalFrame sampleCall {} 0).1).toOption.map
      (·.diagnostics.map Diagnostic.code) = some ["E403"] := by decide +kernel
  have hadmit : Limits.Admit {} sampleCall := ⟨by decide, by decide, by decide +kernel⟩
  obtain ⟨p, hparse, -, -, hends⟩ := hreached.evaluate_settled hadmit
  rcases hends with hnever | ⟨least, o, h', hlt, hge, hsettled⟩
  · rw [hnever 0] at hcode
    cases hcode
  · have hleast : least = 0 := by
      by_contra hne
      rw [hlt 0 (Nat.pos_of_ne_zero hne)] at hcode
      cases hcode
    subst hleast
    rw [hge 0 (Nat.le_refl 0)] at hcode
    exact ⟨p, o, h', hparse, hsettled, fun rounds => hge rounds (Nat.zero_le rounds),
      Option.some.inj hcode⟩

end Heap

end Ember

import Ember.Proofs.Eval.Capture
import Ember.Proofs.Eval.Unmentioned
import Ember.Proofs.Session.Ends
import Ember.Proofs.Session.Isomorphic
import Ember.Proofs.Session.Layout

/-!
# Bindings that are not mentioned

Two environments may differ in whether and to what they bind a name. A program that does not
mention it, in heaps whose functions do not mention it, comes to the same in both
(`unmentioned_irrelevant`).

The two heaps are compared without the name: each evaluation is followed in the heap without it
(`Heap.run_blind`), and there the environments are isomorphic.
-/

namespace Ember

open Heap

namespace Matching

variable {m : Matching} {h h' : Heap} {f f' : FrameId}

/-- Frames that are paired show the same of the same names. -/
theorem Joins.shown (hm : m.Joins (· = ·) h h') (hf : m.frames f f') :
    h.shown f = h'.shown f' := by
  unfold Heap.shown bindings
  rw [List.map_map, List.map_map, ← List.forall₂_eq_eq_eq, List.forall₂_map_left_iff,
    List.forall₂_map_right_iff]
  have hslots : List.Forall₂ _ _ _ := hm.slots hf
  refine hslots.imp fun e e' he => ?_
  have hcontent : m.Results (Node.Alike id) (h.content e.2) (h'.content e'.2) :=
    alike_id_eq ▸ hm.content he.2
  exact Prod.ext he.1 hcontent.displayOf

/-- Of two runs that came to the same one was given up for its rounds if the other was. -/
theorem Same.endless_iff {r r' : Except Fault Outcome} (hs : m.Same r r') :
    r = .error .endless ↔ r' = .error .endless := by
  cases hs with
  | fault reason => exact .rfl
  | failed cause d => exact ⟨nofun, nofun⟩
  | finished => exact ⟨nofun, nofun⟩

end Matching

namespace Heap

variable {h h' : Heap} {x : String} {f : FrameId}

/-! ## Runs with and without the name -/

/-- A program that does not mention the name comes to the same in heaps that are the same but
for it. -/
theorem run_blind (hh : Twofold x h h') {p : Program} (hp : ∀ n ∈ p.statements, n.Omits x)
    (f : FrameId) (limit : Int) (rounds : Nat) :
    (h.run f p limit rounds).1 = (h'.run f p limit rounds).1 ∧
      Onward x h h' (h.run f p limit rounds).2 (h'.run f p limit rounds).2 := by
  unfold run
  cases depthBudget limit with
  | error reason => exact ⟨rfl, hh.stay⟩
  | ok depth =>
    have hblind := program_blind rounds depth p.span hp f h h' hh
    simp only [Program.toNode]
    generalize evalNode rounds depth (.program p.span p.statements) f h = r at hblind ⊢
    generalize evalNode rounds depth (.program p.span p.statements) f h' = r' at hblind ⊢
    cases hblind with
    | ok _ hg => exact ⟨rfl, hg⟩
    | error stop hg => cases stop <;> exact ⟨rfl, hg⟩

/-- A heap in which cells have one name each is a pair with itself without the name. -/
theorem Named.twofold (hn : h.Named) (ho : h.Holds (Value.Omits x)) :
    Twofold x h (h.without x) :=
  ⟨.refl_without h x, hn, hn.without x, ho⟩

/-- What is shown of the other names does not depend on the name. -/
theorem shown_without (h : Heap) (x : String) (f : FrameId) :
    (h.without x).shown f = (h.shown f).filter fun entry => entry.1 ≠ x := by
  unfold shown bindings
  rw [slots_without, List.map_map, List.map_map, List.filter_map]
  rfl

/-! ## Sessions -/

/-- A program changes the heap step by step. -/
theorem run_history {s : History} (hs : s.Placed) (hf : s.Live f) (p : Program) (limit : Int)
    (rounds : Nat) : ∃ cs, s.Spares cs ∧ (s.run cs).heap = (s.heap.run f p limit rounds).2 := by
  unfold run
  cases depthBudget limit with
  | error reason => exact ⟨[], trivial, rfl⟩
  | ok depth =>
    obtain ⟨cs, hcs, he⟩ := evalNode_unwinds hs hf rounds depth p.toNode
    refine ⟨cs, hcs, ?_⟩
    rw [he, Run.after]
    dsimp only
    cases evalNode rounds depth p.toNode f s.heap with
    | ok v g => rfl
    | error stop g => cases stop <;> rfl

/-- The heaps of a session are heaps of histories. -/
theorem Reached.history (hh : h.Reached) : ∃ cs, (History.initial.run cs).heap = h := by
  have hlive : ∀ cs, (History.initial.run cs).Live globalFrame := fun cs =>
    History.Live.run ⟨by decide, List.not_mem_nil⟩ cs
  induction hh with
  | initial => exact ⟨[], rfl⟩
  | @evaluate h s limits rounds _ _ ih =>
    obtain ⟨cs, rfl⟩ := ih
    unfold Heap.evaluate
    cases s.parse limits with
    | error reason => exact ⟨cs, rfl⟩
    | ok parsed =>
      dsimp only
      split
      · have hplaced := History.owned_initial.placed.run cs
        obtain ⟨more, -, he⟩ := run_history hplaced (hlive cs) parsed.program limits.depth rounds
        exact ⟨cs ++ more, by rw [History.run_append, he]⟩
      · exact ⟨cs, rfl⟩

end Heap

/-- **A binding that is not mentioned does not matter.** Two environments, of whatever histories,
are isomorphic but for a name `x`: a matching pairs all that is reached from the one without `x`
with all that is reached from the other without `x`. So they may differ in whether `x` is bound,
there and in all snapshots, and in the values that it is bound to. If neither the program nor the
body of a function in one of the heaps mentions `x`, then for every bound on the rounds of its
loops

- the program comes to the same in both: to the same fault, to the same failure at the same
  place, or to values that have the same type and are shown alike,
- the environments are again isomorphic but for `x`, and show the same of the other names in the
  same order,
- in every frame of either heap `x` is bound as before, to what it was bound to.

So the program goes on for ever in both or in neither. -/
theorem unmentioned_irrelevant (past past' : List Change) (m : Matching) (x : String)
    (f f' : FrameId) (p : Program) (limit : Int) :
    let h := (History.initial.run past).heap
    let h' := (History.initial.run past').heap
    m.Isomorphism (h.without x) f (h'.without x) f' →
    h.Holds (Value.Omits x) → h'.Holds (Value.Omits x) → (∀ n ∈ p.statements, n.Omits x) →
    (∀ rounds,
      let r := h.run f p limit rounds
      let r' := h'.run f' p limit rounds
      (∃ m', m.Extends m' ∧ m'.Same r.1 r'.1 ∧
        m'.Isomorphism (r.2.without x) f (r'.2.without x) f') ∧
      (r.2.shown f).filter (fun entry => entry.1 ≠ x) =
        (r'.2.shown f').filter (fun entry => entry.1 ≠ x) ∧
      Untouched x h r.2 ∧ Untouched x h' r'.2) ∧
    ((∀ rounds, (h.run f p limit rounds).1 = .error .endless) ↔
      ∀ rounds, (h'.run f' p limit rounds).1 = .error .endless) := by
  intro h h' hi ho ho' hp
  have hh : Twofold x h (h.without x) := (Named.of_history past).twofold ho
  have hh' : Twofold x h' (h'.without x) := (Named.of_history past').twofold ho'
  have hrounds : ∀ rounds, ∃ m', m.Extends m' ∧
      m'.Same (h.run f p limit rounds).1 (h'.run f' p limit rounds).1 ∧
      m'.Isomorphism ((h.run f p limit rounds).2.without x) f
        ((h'.run f' p limit rounds).2.without x) f' := by
    intro rounds
    obtain ⟨hout, hg⟩ := run_blind hh hp f limit rounds
    obtain ⟨hout', hg'⟩ := run_blind hh' hp f' limit rounds
    obtain ⟨m', hgrows, hsame⟩ := hi.joins.run hi.present hi.start p limit rounds
    have hsides := hg.pair.same
    have hsides' := hg'.pair.same
    refine ⟨m', hgrows.keeps, by rwa [hout, hout'], ?_, ?_, hgrows.keeps.frames hi.start⟩
    · rw [hsides, hsides']
      exact hgrows.joins.without x
    · rw [hsides, hsides']
      have hpresent := hgrows.present hi.present
      refine ⟨fun hf => ?_, fun hc => hpresent.cells hc⟩
      rw [frames_without, frames_without]
      exact hpresent.frames hf
  refine ⟨fun rounds => ?_, forall_congr' fun rounds => ?_⟩
  · obtain ⟨m', hkeeps, hsame, hiso⟩ := hrounds rounds
    refine ⟨⟨m', hkeeps, hsame, hiso⟩, ?_, (run_blind hh hp f limit rounds).2.left,
      (run_blind hh' hp f' limit rounds).2.left⟩
    rw [← shown_without, ← shown_without]
    exact hiso.joins.shown hiso.start
  · obtain ⟨m', -, hsame, -⟩ := hrounds rounds
    exact hsame.endless_iff

/-- The function that gives back `a`, in a session that binds `a` to one and behind some
changes. -/
def samplePast (before : List Change) : List Change :=
  let body : Node := .block none [.expression none (.identifier none "a")]
  before ++ [.declare 0 "a" (some (.integer 1)), .capture 0,
    .declare 0 "f" (some (.function ⟨[], body, 1⟩))]

theorem unmentioned_irrelevant_call :
    let h := (History.initial.run (samplePast [])).heap
    let h' := (History.initial.run (samplePast [.declare 0 "x" (some (.integer 7))])).heap
    let p : Program := ⟨none, [.expression none (.call none (.identifier none "f") [])]⟩
    h.slot? 0 "x" = none ∧ h'.slot? 0 "x" = some 0 ∧ h'.slot? 1 "x" = some 0 ∧
      ∃ m : Matching, m.Isomorphism (h.without "x") 0 (h'.without "x") 0 ∧
        (∃ m' : Matching, m'.Same (h.run 0 p 10000 0).1 (h'.run 0 p 10000 0).1) ∧
        Untouched "x" h' (h'.run 0 p 10000 0).2 := by
  intro h h' p
  let m : Matching := ⟨fun f f' => f < 2 ∧ f = f', fun c c' => c < 2 ∧ c' = c + 1⟩
  have hi : m.Isomorphism (h.without "x") 0 (h'.without "x") 0 := by
    refine ⟨⟨?_, ?_, ?_, ?_, ?_⟩, ⟨?_, ?_⟩, by decide, rfl⟩
    · rintro f _ g _ ⟨-, rfl⟩ ⟨-, rfl⟩
      exact .rfl
    · rintro c _ d _ ⟨-, rfl⟩ ⟨-, rfl⟩
      exact Nat.add_right_cancel_iff.symm
    · rintro f _ ⟨hf, rfl⟩
      rw [outers_without, outers_without]
      match f, hf with
      | 0, _ => exact .nil
      | 1, _ => exact .cons ⟨by decide, rfl⟩ .nil
    · rintro f _ ⟨hf, rfl⟩
      rw [slots_without, slots_without]
      match f, hf with
      | 0, _ => exact .cons ⟨rfl, by decide, rfl⟩ (.cons ⟨rfl, by decide, rfl⟩ .nil)
      | 1, _ => exact .cons ⟨rfl, by decide, rfl⟩ .nil
    · rintro c _ ⟨hc, rfl⟩
      match c, hc with
      | 0, _ => exact .some (.integer 1)
      | 1, _ => exact .some (.function [] rfl ⟨by decide, rfl⟩)
    · rintro f _ ⟨hf, rfl⟩
      rw [frames_without, frames_without]
      exact ⟨hf, hf⟩
    · rintro c _ ⟨hc, rfl⟩
      exact ⟨hc, Nat.succ_lt_succ hc⟩
  have hbody : Node.Omits "x" (.block none [.expression none (.identifier none "a")]) := by
    decide
  have ho : h.Holds (Value.Omits "x") := by
    intro c v hv
    match c with
    | 0 =>
      cases hv
      trivial
    | 1 =>
      cases hv
      exact hbody
    | _ + 2 => cases hv
  have ho' : h'.Holds (Value.Omits "x") := by
    intro c v hv
    match c with
    | 0 | 1 =>
      cases hv
      trivial
    | 2 =>
      cases hv
      exact hbody
    | _ + 3 => cases hv
  have hp : ∀ n ∈ p.statements, n.Omits "x" := by
    intro n hn
    obtain rfl := List.mem_singleton.1 hn
    decide
  obtain ⟨hrun, -⟩ := unmentioned_irrelevant (samplePast [])
    (samplePast [.declare 0 "x" (some (.integer 7))]) m "x" 0 0 p 10000 hi ho ho' hp
  obtain ⟨⟨m', -, hsame, -⟩, -, -, huntouched⟩ := hrun 0
  exact ⟨by decide, by decide, by decide, m, hi, ⟨m', hsame⟩, huntouched⟩

end Ember

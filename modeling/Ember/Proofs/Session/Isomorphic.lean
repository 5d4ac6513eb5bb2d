import Ember.Proofs.Session.Twins

/-!
# Isomorphic environments

Two frames are isomorphic when a matching pairs all that is reached from the one with all
that is reached from the other. A program cannot tell them apart: whatever else the heaps
hold, it comes to the same in both, and the frames are isomorphic again
(`Matching.Isomorphism.run_isomorphic`).
-/

namespace Ember

open Heap

namespace Matching

variable {m : Matching} {h h' : Heap} {f f' : FrameId}

/-- The matching is an isomorphism between what is reached from `f` in the one heap and what
is reached from `f'` in the other. Functions that it pairs have the same body. -/
structure Isomorphism (m : Matching) (h : Heap) (f : FrameId) (h' : Heap) (f' : FrameId) :
    Prop where
  joins : m.Joins (· = ·) h h'
  present : m.Present h h'
  start : m.frames f f'

/-- Two runs came to the same, places included, and to values that are shown alike. -/
inductive Same (m : Matching) : Except Fault Outcome → Except Fault Outcome → Prop
  | fault (reason : Fault) : Same m (.error reason) (.error reason)
  | failed (cause : RuntimeCause) (d : Diagnostic) :
      Same m (.ok (.failed cause d)) (.ok (.failed cause d))
  | finished {v v' : Option Value} : m.Results (· = ·) v v' → typeNameOf v = typeNameOf v' →
      displayOf v = displayOf v' → Same m (.ok (.finished v)) (.ok (.finished v'))

namespace Isomorphism

theorem swap (hi : m.Isomorphism h f h' f') : m.swap.Isomorphism h' f' h f where
  joins := by
    have hflip : (flip (· = ·) : BodyRel) = (· = ·) := by
      funext n n'
      exact propext eq_comm
    exact hflip ▸ hi.joins.swap
  present := ⟨fun hf => (hi.present.frames hf).symm, fun hc => (hi.present.cells hc).symm⟩
  start := hi.start

/-- A frame that is reached on one side has one partner, which is reached on the other. -/
theorem frame_partner (hi : m.Isomorphism h f h' f') {g : FrameId} (hg : h.ReachesFrame f g) :
    ∃ g', m.frames g g' ∧ h'.ReachesFrame f' g' ∧ ∀ o, m.frames g o → o = g' := by
  obtain ⟨g', hgg, hg'⟩ := hi.joins.reachesFrame hi.start hg
  exact ⟨g', hgg, hg', fun o ho => (hi.joins.frame_iff ho hgg).1 rfl⟩

/-- A cell that is reached on one side has one partner, which is reached on the other. -/
theorem cell_partner (hi : m.Isomorphism h f h' f') {c : CellId} (hc : h.ReachesCell f c) :
    ∃ c', m.cells c c' ∧ h'.ReachesCell f' c' ∧ ∀ o, m.cells c o → o = c' := by
  obtain ⟨c', hcc, hc'⟩ := hi.joins.reachesCell hi.start hc
  exact ⟨c', hcc, hc', fun o ho => (hi.joins.cell_iff ho hcc).1 rfl⟩

end Isomorphism

theorem alike_id_eq : Node.Alike id = (· = ·) := by
  funext n n'
  exact propext Node.alike_id

/-- Runs of one program in joined heaps. -/
theorem Joins.run (hm : m.Joins (· = ·) h h') (hp : m.Present h h') (hf : m.frames f f')
    (p : Program) (limit : Int) (rounds : Nat) :
    ∃ m', m.Grows (· = ·) h h' m' (h.run f p limit rounds).2 (h'.run f' p limit rounds).2 ∧
      m'.Same (h.run f p limit rounds).1 (h'.run f' p limit rounds).1 := by
  have hns : List.Forall₂ (Node.Alike id) p.statements p.statements :=
    List.forall₂_same.2 fun _ _ => rfl
  obtain ⟨m', hgrows, hran⟩ :=
    Heap.run_twins (alike_id_eq ▸ hm) hp.fits hf rfl hns limit rounds
  refine ⟨m', alike_id_eq ▸ hgrows, ?_⟩
  generalize (h.run f p limit rounds).1 = r at hran ⊢
  generalize (h'.run f' p limit rounds).1 = r' at hran ⊢
  cases hran with
  | fault reason => exact .fault reason
  | @failed cause s s' hs =>
    cases (show s = s' from hs)
    exact .failed cause _
  | finished hv => exact .finished (alike_id_eq ▸ hv) hv.typeName hv.displayOf

/-- **A program comes to the same in isomorphic frames.** For every bound on the rounds of
its loops both runs meet the same fault, or fail in the same way at the same place, or come
to corresponding values; the isomorphism extends to what they made. So one of them goes on
for ever exactly when the other does. -/
theorem Isomorphism.run_isomorphic (hi : m.Isomorphism h f h' f') (p : Program) (limit : Int) :
    (∀ rounds, ∃ m', m.Extends m' ∧
      m'.Isomorphism (h.run f p limit rounds).2 f (h'.run f' p limit rounds).2 f' ∧
      m'.Same (h.run f p limit rounds).1 (h'.run f' p limit rounds).1) ∧
    ((∀ rounds, (h.run f p limit rounds).1 = .error .endless) ↔
      ∀ rounds, (h'.run f' p limit rounds).1 = .error .endless) := by
  have hrun := hi.joins.run hi.present hi.start p limit
  constructor
  · intro rounds
    obtain ⟨m', hgrows, hsame⟩ := hrun rounds
    exact ⟨m', hgrows.keeps,
      ⟨hgrows.joins, hgrows.present hi.present, hgrows.keeps.frames hi.start⟩, hsame⟩
  · refine forall_congr' fun rounds => ?_
    obtain ⟨m', -, hsame⟩ := hrun rounds
    generalize (h.run f p limit rounds).1 = r at hsame ⊢
    generalize (h'.run f' p limit rounds).1 = r' at hsame ⊢
    cases hsame with
    | fault reason => exact .rfl
    | failed cause d => simp
    | finished => simp

/-- A frame that binds a number and a function, behind some other frames and cells. -/
def sampleBehind (frames : Array Frame) (cells : Array (Option Value)) : Heap :=
  let g := frames.size
  let c := cells.size
  let body : Node := .block none [.expression none (.identifier none "x")]
  { frames := frames ++ #[{ name := "global", slots := ⟨[("x", c), ("f", c + 1)]⟩ },
      { name := "closure:global", slots := ⟨[("x", c)]⟩, outers := [g] }]
    cells := cells ++ #[some (.integer 1), some (.function ⟨[], body, g + 1⟩)] }

theorem run_isomorphic_behind :
    let h := sampleBehind #[] #[]
    let h' := sampleBehind #[{ name := "other", slots := ⟨[("y", 0)]⟩ }] #[none, none]
    let p : Program := ⟨none, [.expression none (.call none (.identifier none "f") [])]⟩
    ∃ m : Matching, m.Isomorphism (h.run 0 p 10000 0).2 0 (h'.run 1 p 10000 0).2 1 ∧
      m.Same (h.run 0 p 10000 0).1 (h'.run 1 p 10000 0).1 := by
  intro h h' p
  let m : Matching := ⟨fun f f' => f < 2 ∧ f' = f + 1, fun c c' => c < 2 ∧ c' = c + 2⟩
  have hi : m.Isomorphism h 0 h' 1 := by
    refine ⟨⟨?_, ?_, ?_, ?_, ?_⟩, ⟨?_, ?_⟩, by decide, rfl⟩
    · rintro f _ g _ ⟨-, rfl⟩ ⟨-, rfl⟩
      exact Nat.add_right_cancel_iff.symm
    · rintro c _ d _ ⟨-, rfl⟩ ⟨-, rfl⟩
      exact Nat.add_right_cancel_iff.symm
    · rintro f _ ⟨hf, rfl⟩
      match f, hf with
      | 0, _ => exact .nil
      | 1, _ => exact .cons ⟨by decide, rfl⟩ .nil
    · rintro f _ ⟨hf, rfl⟩
      match f, hf with
      | 0, _ => exact .cons ⟨rfl, by decide, rfl⟩ (.cons ⟨rfl, by decide, rfl⟩ .nil)
      | 1, _ => exact .cons ⟨rfl, by decide, rfl⟩ .nil
    · rintro c _ ⟨hc, rfl⟩
      match c, hc with
      | 0, _ => exact .some (.integer 1)
      | 1, _ => exact .some (.function [] rfl ⟨by decide, rfl⟩)
    · rintro f _ ⟨hf, rfl⟩
      exact ⟨hf, Nat.succ_lt_succ hf⟩
    · rintro c _ ⟨hc, rfl⟩
      exact ⟨hc, Nat.add_lt_add_right hc 2⟩
  obtain ⟨m', -, hi', hsame⟩ := (hi.run_isomorphic p 10000).1 0
  exact ⟨m', hi', hsame⟩

end Matching

end Ember

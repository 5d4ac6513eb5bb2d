import Ember.Proofs.Eval.Path
import Ember.Proofs.Heap.History

/-!
# What a function sees

A function is made with a snapshot of the frame that it is made in. An evaluation writes
to the frame that it is in and to frames of its own, and so to no snapshot
(`evalNode_unwinds`). What the names of a function stand for is then settled by the
history of the heap (`snapshot_follows`).
-/

namespace Ember

namespace Heap

open History

/-- From `h` to `h'` the heap comes by changes that write to no snapshot, whichever
frames other than `f` are snapshots. -/
def Unwinds (f : FrameId) (h h' : Heap) : Prop :=
  ∀ s : History, s.heap = h → s.Placed → s.Live f → ∃ cs, s.Spares cs ∧ (s.run cs).heap = h'

theorem declareAll_run (s : History) (f : FrameId) (bindings : List (String × Option Value)) :
    (s.run (bindings.map fun b => .declare f b.1 b.2)).heap = s.heap.declareAll f bindings := by
  induction bindings generalizing s with
  | nil => rfl
  | cons b rest ih => exact ih _

theorem declareAll_spares {s : History} {f : FrameId} (hf : s.Live f)
    (bindings : List (String × Option Value)) :
    s.Spares (bindings.map fun b => .declare f b.1 b.2) := by
  induction bindings generalizing s with
  | nil => trivial
  | cons b rest ih =>
    refine ⟨fun t ht => ?_, ih (hf.step _)⟩
    cases ht
    exact hf.notMem

/-- The changes that make the frame of a call and fill it. -/
def entering (inner g : FrameId) (name : String) (bindings : List (String × Option Value)) :
    List Change :=
  .enclose g name :: bindings.map fun b => .declare inner b.1 b.2

theorem entering_run (s : History) (g : FrameId) (name : String)
    (bindings : List (String × Option Value)) :
    (s.run (entering s.heap.frames.size g name bindings)).heap =
      (s.heap.enter g name bindings).2 :=
  declareAll_run ..

theorem lt_frames_enclose (s : History) (g : FrameId) (name : String) :
    s.heap.frames.size < (s.step (.enclose g name)).heap.frames.size := by
  simp [step, change, enclose, frames_addFrame]

/-- The frame of a call is no snapshot. -/
theorem enclose_live {s : History} (hs : s.Placed) (g : FrameId) (name : String) :
    (s.step (.enclose g name)).Live s.heap.frames.size :=
  ⟨lt_frames_enclose s g name, fun hm => Nat.lt_irrefl _ (hs _ hm)⟩

theorem entering_spares {s : History} (hs : s.Placed) (g : FrameId) (name : String)
    (bindings : List (String × Option Value)) :
    s.Spares (entering s.heap.frames.size g name bindings) :=
  ⟨nofun, declareAll_spares (enclose_live hs g name) bindings⟩

theorem entering_live {s : History} (hs : s.Placed) (g : FrameId) (name : String)
    (bindings : List (String × Option Value)) :
    (s.run (entering s.heap.frames.size g name bindings)).Live s.heap.frames.size :=
  (enclose_live hs g name).run _

instance unwinds_path : Path Unwinds where
  stay f h := fun s hs _ _ => ⟨[], trivial, hs⟩
  trans {f h₁ h₂ h₃} h₁₂ h₂₃ := fun s hs hp hf => by
    obtain ⟨cs, hcs, he⟩ := h₁₂ s hs hp hf
    obtain ⟨ds, hds, he'⟩ := h₂₃ (s.run cs) he (hp.run cs) (hf.run cs)
    exact ⟨cs ++ ds, spares_append.2 ⟨hcs, hds⟩, by rw [run_append, he']⟩
  declare f h name value := fun s hs _ hf => by
    subst hs
    exact ⟨[.declare f name value], ⟨fun t ht => by cases ht; exact hf.notMem, trivial⟩, rfl⟩
  assign f h name value := fun s hs _ hf => by
    subst hs
    exact ⟨[.assign f name value], ⟨fun t ht => by cases ht; exact hf.notMem, trivial⟩, rfl⟩
  capture f h := fun s hs _ _ => by
    subst hs
    exact ⟨[.capture f], ⟨fun t ht => (by cases ht), trivial⟩, rfl⟩
  call {f g h h' name bindings} hrun := fun s hs hp _ => by
    subst hs
    obtain ⟨cs, hcs, he⟩ := hrun (s.run (entering s.heap.frames.size g name bindings))
      (entering_run ..) (hp.run _) (entering_live hp ..)
    exact ⟨entering s.heap.frames.size g name bindings ++ cs,
      spares_append.2 ⟨entering_spares hp .., hcs⟩, by rw [run_append, he]⟩

end Heap

open Heap History

/-- An evaluation in a frame that is no snapshot changes the heap step by step, and writes
to no snapshot. -/
theorem evalNode_unwinds {s : History} (hs : s.Placed) {g : FrameId} (hg : s.Live g)
    (rounds depth : Nat) (n : Node) :
    ∃ cs, s.Spares cs ∧ (s.run cs).heap = (evalNode rounds depth n g).after s.heap :=
  (evalNode_along (R := Unwinds) rounds depth n g).run s.heap s rfl hs hg

/-- **What the names of a function stand for.** A frame that is no snapshot is captured at
some point of a history, and changes follow that write to no snapshot. A name that the
frame itself bound then stands in the snapshot for what it was bound to in the frame just
before the frame declared it again, and any other name for what it stands for in the frame.
The value of a function is made with such a snapshot, and the evaluations that follow
make such changes. -/
theorem snapshot_follows (past : List Change) (f : FrameId) (hf : (initial.run past).Live f) :
    let s := initial.run past
    let t := s.step (.capture f)
    let snapshot := s.heap.frames.size
    (∀ changes, t.Spares changes → ∀ x,
      (t.run changes).heap.get? snapshot x =
        if ((s.heap.frame f).slots.get? x).isSome then
          (t.run (changes.takeWhile fun c => !c.declares f x)).heap.get? f x
        else (t.run changes).heap.get? f x) ∧
    (∀ rounds depth span params body,
      evalTask rounds (depth + 2) (.expression (.function span params body)) f s.heap =
        .ok (some (.function ⟨params.map Name.text, body, snapshot⟩)) t.heap) ∧
    (∀ changes, t.Spares changes → ∀ g, (t.run changes).Live g → ∀ rounds depth n, ∃ more,
      t.Spares (changes ++ more) ∧
        (t.run (changes ++ more)).heap =
          (evalNode rounds depth n g).after (t.run changes).heap) := by
  have hs : (initial.run past).Owned := owned_initial.run past
  refine ⟨fun changes hc x => hs.get?_capture hf hc x,
    fun rounds depth span params body => rfl, fun changes hc g hg rounds depth n => ?_⟩
  obtain ⟨more, hmore, he⟩ := evalNode_unwinds ((hs.step _).placed.run changes) hg rounds depth n
  exact ⟨more, spares_append.2 ⟨hc, hmore⟩, by rw [run_append, he]⟩

theorem snapshot_follows_redeclared :
    let s := initial.run [.declare 0 "x" (some (.integer 10))]
    let t := s.step (.capture 0)
    let changes : List Change :=
      [.assign 0 "x" (some (.integer 11)), .declare 0 "x" (some (.integer 20)),
        .declare 0 "y" (some (.integer 5)), .assign 0 "x" (some (.integer 30))]
    s.Live 0 ∧ t.Spares changes ∧
      (t.run changes).heap.get? 1 "x" = some (some (.integer 11)) ∧
      (t.run changes).heap.get? 1 "y" = some (some (.integer 5)) := by
  have hlive : (initial.run [.declare 0 "x" (some (.integer 10))]).Live 0 :=
    ⟨by decide, by decide⟩
  have hspares : ((initial.run [.declare 0 "x" (some (.integer 10))]).step (.capture 0)).Spares
      [.assign 0 "x" (some (.integer 11)), .declare 0 "x" (some (.integer 20)),
        .declare 0 "y" (some (.integer 5)), .assign 0 "x" (some (.integer 30))] := by
    refine ⟨?_, ?_, ?_, ?_, trivial⟩ <;> · intro t ht; cases ht; decide
  obtain ⟨hget, -, -⟩ := snapshot_follows [.declare 0 "x" (some (.integer 10))] 0 hlive
  exact ⟨hlive, hspares, hget _ hspares "x", hget _ hspares "y"⟩

end Ember

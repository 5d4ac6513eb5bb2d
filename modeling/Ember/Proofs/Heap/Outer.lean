import Ember.Proofs.Heap.Without

/-!
# Assignments and the frames around

An assignment writes to the cell that its frame itself binds, and a frame around may look
the name up to the same cell. Where changes are made to frames that are there, the frames
around a frame are older than it, and a frame that is no snapshot is the oldest of those
that bind its cells (`History.Rooted`). So an assignment in such a frame is never seen
further out; a snapshot passes it on to the frames that it shares the cell with
(`assignment_reaches`).
-/

namespace Ember

namespace Heap

/-- The frame that a change is made to. -/
def Change.frame : Change → FrameId
  | .enclose f _ | .capture f | .declare f _ _ | .assign f _ _ => f

section

variable {h : Heap} {f g : FrameId} {x y : String} {cell : CellId} {value : Option Value}

/-- A name that is looked up is bound in the frame or in one around it. -/
theorem exists_slot_of_lookup (hl : h.lookup f x = some cell) :
    ∃ g ∈ h.chain f, h.slot? g x = some cell :=
  List.exists_of_findSome?_eq_some hl

/-- A declaration is not seen where its frame is not looked at. -/
theorem lookup_declare (hg : f ∉ h.chain g) : (h.declare f x value).lookup g y = h.lookup g y := by
  have hchain : (h.declare f x value).chain g = h.chain g := by
    rw [chain, chain, outers_declare]
  have hslots : (h.chain g).map (fun e => (h.declare f x value).slot? e y) =
      (h.chain g).map fun e => h.slot? e y := by
    refine List.map_congr_left fun e he => slot?_eq (frame_declare_of_ne ?_)
    rintro rfl
    exact hg he
  calc (h.declare f x value).lookup g y
      = ((h.chain g).map fun e => (h.declare f x value).slot? e y).findSome? id := by
        rw [List.findSome?_map, ← hchain]
        rfl
    _ = h.lookup g y := by
        rw [hslots, List.findSome?_map]
        rfl

end

namespace History

variable {s : History} {c : Change} {cs : List Change} {f g : FrameId} {x y : String}
  {cell : CellId} {value : Option Value}

/-- The changes, one after the other, are made to frames that are there. -/
def Grounded (s : History) : List Change → Prop
  | [] => True
  | c :: cs => c.frame < s.heap.frames.size ∧ (s.step c).Grounded cs

instance (s : History) : (cs : List Change) → Decidable (s.Grounded cs)
  | [] => .isTrue trivial
  | c :: cs =>
    have := instDecidableGrounded (s.step c) cs
    inferInstanceAs (Decidable (c.frame < s.heap.frames.size ∧ (s.step c).Grounded cs))

/-! ## Older frames -/

/-- The frames around a frame are older, and a frame that is no snapshot is the oldest of
those that bind a cell of it. -/
structure Rooted (s : History) : Prop where
  owned : s.Owned
  older : ∀ {f g}, g ∈ (s.heap.frame f).outers → g < f
  oldest : ∀ {f g x y cell}, f ∉ s.snapshots → s.heap.slot? f x = some cell →
    s.heap.slot? g y = some cell → f ≤ g

theorem lt_of_slot (hs : s.heap.slot? f x = some cell) : f < s.heap.frames.size := by
  by_contra hf
  rw [slot?_of_le (Nat.not_lt.1 hf)] at hs
  cases hs

theorem rooted_initial : initial.Rooted where
  owned := owned_initial
  older := by
    intro f g hg
    cases f with
    | zero => cases hg
    | succ f =>
      rw [frame_of_le (Nat.le_add_left 1 f)] at hg
      cases hg
  oldest := by
    intro f g x y cell _ hs _
    rw [slot?_initial] at hs
    cases hs

/-- A new frame is inside those that are there already, and other frames keep the frames
around them. -/
theorem mem_outers_step (hg : g ∈ ((s.step c).heap.frame f).outers) :
    g ∈ (s.heap.frame f).outers ∨ f = s.heap.frames.size ∧ g ∈ s.heap.chain c.frame := by
  have hnew : ∀ fr : Frame, fr.outers = s.heap.chain c.frame →
      g ∈ ((s.heap.addFrame fr).2.frame f).outers →
      g ∈ (s.heap.frame f).outers ∨ f = s.heap.frames.size ∧ g ∈ s.heap.chain c.frame := by
    intro fr hfr hg
    rw [frame_addFrame] at hg
    split at hg
    · next he => exact .inr ⟨he, hfr ▸ hg⟩
    · exact .inl hg
  cases c with
  | enclose e name => exact hnew _ rfl hg
  | capture e => exact hnew _ rfl hg
  | declare e z value =>
    left
    rwa [← outers_declare s.heap e z value f]
  | assign e z value =>
    left
    rwa [← outers_assign s.heap e z value f]

theorem Rooted.step (hs : s.Rooted) (hc : c.frame < s.heap.frames.size) : (s.step c).Rooted where
  owned := hs.owned.step c
  older := by
    intro f g hg
    rcases mem_outers_step hg with hold | ⟨rfl, hnew⟩
    · exact hs.older hold
    · rcases List.mem_cons.1 hnew with rfl | hg
      · exact hc
      · exact Nat.lt_trans (hs.older hg) hc
  oldest := by
    intro f g x y cell hf hfx hgy
    have hold : f ∉ s.snapshots := fun hm => hf (snapshots_step hm)
    rcases slot?_step hfx with hfx | ⟨-, hm, -⟩ | ⟨htf, hnew, -⟩
    · rcases slot?_step hgy with hgy | ⟨rfl, -, -⟩ | ⟨-, rfl, -⟩
      · exact hs.oldest hold hfx hgy
      · -- the new snapshot is the youngest frame
        exact Nat.le_of_lt (lt_of_slot hfx)
      · exact absurd (hs.owned.cells_lt hfx) (Nat.lt_irrefl _)
    · exact absurd hm hf
    · rcases slot?_step hgy with hgy | ⟨-, -, e, he⟩ | ⟨htg, -, -⟩
      · exact absurd (hnew ▸ hs.owned.cells_lt hgy) (Nat.lt_irrefl _)
      · exact absurd (hnew ▸ hs.owned.cells_lt he) (Nat.lt_irrefl _)
      · exact Nat.le_of_eq (congrArg Prod.fst (Option.some.inj (htf.symm.trans htg)))

theorem Rooted.run (hs : s.Rooted) (hcs : s.Grounded cs) : (s.run cs).Rooted := by
  induction cs generalizing s with
  | nil => exact hs
  | cons c cs ih => exact ih (hs.step hcs.1) hcs.2

/-- A frame is not around the frames around it. -/
theorem Rooted.not_mem_chain (hs : s.Rooted) (hg : g ∈ (s.heap.frame f).outers) :
    f ∉ s.heap.chain g := by
  have hlt : g < f := hs.older hg
  intro hf
  rcases List.mem_cons.1 hf with rfl | hf
  · exact Nat.lt_irrefl _ hlt
  · exact Nat.lt_asymm hlt (hs.older hf)

/-- What a frame around looks up to a cell of the frame, it looks up under the same name, and
the frame is a snapshot. -/
theorem Rooted.shared (hs : s.Rooted) (hn : s.heap.Named) (hg : g ∈ (s.heap.frame f).outers)
    (hx : s.heap.slot? f x = some cell) (hl : s.heap.lookup g y = some cell) :
    f ∈ s.snapshots ∧ x = y := by
  obtain ⟨e, he, hslot⟩ := exists_slot_of_lookup hl
  have hlt : e < f := by
    have hgf : g < f := hs.older hg
    rcases List.mem_cons.1 he with rfl | he
    · exact hgf
    · exact Nat.lt_trans (hs.older he) hgf
  refine ⟨?_, hn.unique hx hslot⟩
  by_contra hf
  exact Nat.not_lt.2 (hs.oldest hf hx hslot) hlt

/-! ## Assignments -/

/-- Writing to a cell changes what a name stands for where it is looked up to that cell. -/
theorem get?_write (hlt : cell < s.heap.cells.size) :
    ({ s.heap with cells := s.heap.cells.setIfInBounds cell value } : Heap).get? g y =
      if s.heap.lookup g y = some cell then some value else s.heap.get? g y := by
  have hlookup : ({ s.heap with cells := s.heap.cells.setIfInBounds cell value } : Heap).lookup g y
      = s.heap.lookup g y := rfl
  rw [get?, get?, hlookup]
  cases s.heap.lookup g y with
  | none => rfl
  | some other =>
    rw [Option.map_some, Option.map_some, content_write]
    by_cases he : other = cell
    · rw [if_pos ⟨he, hlt⟩, if_pos (congrArg some he)]
    · rw [if_neg fun hall => he hall.1, if_neg fun hall => he (Option.some.inj hall)]

/-- What was looked up to a cell is not changed by a declaration that is not seen. -/
theorem Owned.get?_declare (hs : s.Owned) (hg : f ∉ s.heap.chain g) :
    (s.heap.declare f x value).get? g y = s.heap.get? g y := by
  rw [get?, get?, lookup_declare hg]
  cases hl : s.heap.lookup g y with
  | none => rfl
  | some cell =>
    obtain ⟨e, -, hslot⟩ := exists_slot_of_lookup hl
    have hne : cell ≠ s.heap.cells.size := Nat.ne_of_lt (hs.cells_lt hslot)
    rw [Option.map_some, Option.map_some, content_declare, if_neg hne]

/-- After an assignment the name stands for the value in the frame. -/
theorem Owned.get?_assign_self (hs : s.Owned) (hf : f < s.heap.frames.size) :
    (s.heap.assign f x value).get? f x = some value := by
  cases hx : s.heap.slot? f x with
  | some cell =>
    have hl : s.heap.lookup f x = some cell := by
      unfold slot? at hx
      simp [lookup, chain, hx]
    rw [assign_of_slot hx, get?_write (hs.cells_lt hx), if_pos hl]
  | none =>
    have hslot : (s.heap.declare f x value).slot? f x = some s.heap.cells.size := by
      rw [slot?_declare, if_pos ⟨rfl, hf, rfl⟩]
    rw [assign_of_no_slot hx, get?_of_slot hslot, content_declare, if_pos rfl]

end History

end Heap

open Heap History

/-- **How far an assignment reaches.** Changes have been made to frames that are there, and a
value is assigned to a name in any frame `f`. The name stands for the value in `f` from then
on. In a frame around `f` nothing changes, whatever the name, unless `f` is a snapshot: the
name that is assigned then stands for the value also in those frames around that look it up
to the cell which the snapshot shares. -/
theorem assignment_reaches (past : List Change) (hpast : initial.Grounded past) (f : FrameId)
    (hf : f < (initial.run past).heap.frames.size) (x : String) (value : Option Value) :
    let s := initial.run past
    let h := s.heap.assign f x value
    h.get? f x = some value ∧
    ∀ g ∈ (s.heap.frame f).outers, ∀ y,
      h.get? g y =
        if f ∈ s.snapshots ∧ x = y ∧ ∃ cell ∈ s.heap.slot? f x, s.heap.lookup g x = some cell then
          some value
        else s.heap.get? g y := by
  have hs : (initial.run past).Rooted := rooted_initial.run hpast
  refine ⟨hs.owned.get?_assign_self hf, fun g hg y => ?_⟩
  cases hx : (initial.run past).heap.slot? f x with
  | none =>
    -- the frame gets a cell of its own, and no frame around looks at it
    rw [assign_of_no_slot hx, hs.owned.get?_declare (hs.not_mem_chain hg)]
    simp
  | some cell =>
    rw [assign_of_slot hx, get?_write (hs.owned.cells_lt hx)]
    have hiff : (initial.run past).heap.lookup g y = some cell ↔
        f ∈ (initial.run past).snapshots ∧ x = y ∧
          ∃ c ∈ some cell, (initial.run past).heap.lookup g x = some c := by
      constructor
      · intro hl
        obtain ⟨hm, rfl⟩ := hs.shared (Named.of_history past) hg hx hl
        exact ⟨hm, rfl, cell, rfl, hl⟩
      · rintro ⟨-, rfl, c, hc, hl⟩
        cases hc
        exact hl
    simp only [hiff]

theorem assignment_reaches_snapshot :
    let past : List Change :=
      [.declare 0 "x" (some (.integer 1)), .enclose 0 "call", .capture 0]
    let h := (initial.run past).heap
    initial.Grounded past ∧ 1 < h.frames.size ∧ 2 < h.frames.size ∧
      (h.assign 1 "x" (some (.integer 2))).get? 1 "x" = some (some (.integer 2)) ∧
      (h.assign 1 "x" (some (.integer 2))).get? 0 "x" = some (some (.integer 1)) ∧
      (h.assign 2 "x" (some (.integer 3))).get? 2 "x" = some (some (.integer 3)) ∧
      (h.assign 2 "x" (some (.integer 3))).get? 0 "x" = some (some (.integer 3)) := by
  let past : List Change := [.declare 0 "x" (some (.integer 1)), .enclose 0 "call", .capture 0]
  have hpast : initial.Grounded past := by decide
  obtain ⟨hcall, houter⟩ := assignment_reaches past hpast 1 (by decide) "x" (some (.integer 2))
  obtain ⟨hself, hshared⟩ := assignment_reaches past hpast 2 (by decide) "x" (some (.integer 3))
  refine ⟨hpast, by decide, by decide, hcall, houter 0 (by decide) "x", hself, ?_⟩
  exact (hshared 0 (by decide) "x").trans (if_pos ⟨by decide, rfl, 0, rfl, rfl⟩)

/-- An assignment in a snapshot is seen in the frame that the snapshot was taken of. -/
theorem snapshot_assignment_seen_outside :
    let past : List Change := [.declare 0 "x" (some (.integer 1)), .capture 0]
    let h := (initial.run past).heap
    initial.Grounded past ∧ 0 ∈ (h.frame 1).outers ∧
      h.get? 0 "x" = some (some (.integer 1)) ∧
      (h.assign 1 "x" (some (.integer 2))).get? 0 "x" = some (some (.integer 2)) :=
  ⟨by decide, by decide, rfl, rfl⟩

end Ember

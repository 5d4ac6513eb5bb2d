import Ember.Proofs.Eval.Path
import Ember.Proofs.Heap.Change

/-!
# What an evaluation may change

An evaluation in a frame changes that frame and the cells it binds, and nothing else
that was there before (`Heap.Keeps`). A call changes nothing at all that was there before
it, since the frame in which the body is evaluated is new and binds new cells only
(`apply_keeps`).
-/

namespace Ember

namespace Heap

/-- From `h` to `h'` only the frame `f` and the cells that it binds have changed. New
frames and the changed one bind no other old cells. -/
structure Keeps (f : FrameId) (h h' : Heap) : Prop where
  frames_le : h.frames.size ≤ h'.frames.size
  cells_le : h.cells.size ≤ h'.cells.size
  frame : ∀ g < h.frames.size, g ≠ f → h'.frame g = h.frame g
  content : ∀ c < h.cells.size, c ∉ h.cellsOf f → h'.content c = h.content c
  binds : ∀ g, g = f ∨ h.frames.size ≤ g → ∀ c ∈ h'.cellsOf g, c ∈ h.cellsOf f ∨ h.cells.size ≤ c

variable {f g : FrameId} {h h₁ h₂ h₃ : Heap}

theorem Keeps.refl (f : FrameId) (h : Heap) : Keeps f h h where
  frames_le := Nat.le_refl _
  cells_le := Nat.le_refl _
  frame _ _ _ := rfl
  content _ _ _ := rfl
  binds g hg c hc := by
    rcases hg with rfl | hg
    · exact .inl hc
    · rw [cellsOf_of_le hg] at hc
      cases hc

theorem Keeps.trans (h₁₂ : Keeps f h₁ h₂) (h₂₃ : Keeps f h₂ h₃) : Keeps f h₁ h₃ where
  frames_le := Nat.le_trans h₁₂.frames_le h₂₃.frames_le
  cells_le := Nat.le_trans h₁₂.cells_le h₂₃.cells_le
  frame g hg hne :=
    (h₂₃.frame g (Nat.lt_of_lt_of_le hg h₁₂.frames_le) hne).trans (h₁₂.frame g hg hne)
  content c hc hf := by
    -- an old cell that the frame binds in between it has bound from the start
    have hf₂ : c ∉ h₂.cellsOf f := fun hf₂ =>
      (h₁₂.binds f (.inl rfl) c hf₂).elim hf (fun hle => absurd hc (Nat.not_lt.2 hle))
    exact (h₂₃.content c (Nat.lt_of_lt_of_le hc h₁₂.cells_le) hf₂).trans (h₁₂.content c hc hf)
  binds g hg c hc := by
    have hold : c ∈ h₂.cellsOf f → c ∈ h₁.cellsOf f ∨ h₁.cells.size ≤ c :=
      h₁₂.binds f (.inl rfl) c
    by_cases hg₂ : g = f ∨ h₂.frames.size ≤ g
    · rcases h₂₃.binds g hg₂ c hc with hc | hc
      · exact hold hc
      · exact .inr (Nat.le_trans h₁₂.cells_le hc)
    · obtain ⟨hne, hlt⟩ := not_or.1 hg₂
      rw [cellsOf_eq (h₂₃.frame g (Nat.not_le.1 hlt) hne)] at hc
      exact h₁₂.binds g hg c hc

theorem keeps_declare (f : FrameId) (h : Heap) (name : String) (value : Option Value) :
    Keeps f h (h.declare f name value) where
  frames_le := Nat.le_of_eq (frames_declare h f name value).symm
  cells_le := by
    rw [cells_declare]
    exact Nat.le_succ _
  frame _ _ hne := frame_declare_of_ne hne
  content _ hc _ := by rw [content_declare, if_neg (Nat.ne_of_lt hc)]
  binds g hg c hc := by
    rcases mem_cellsOf_declare hc with rfl | hc
    · exact .inr (Nat.le_refl _)
    · exact (Keeps.refl f h).binds g hg c hc

theorem keeps_assign (f : FrameId) (h : Heap) (name : String) (value : Option Value) :
    Keeps f h (h.assign f name value) := by
  rcases assign_cases h f name value with ⟨cell, hcell, he⟩ | he
  · rw [he]
    refine ⟨Nat.le_refl _, by simp, fun _ _ _ => rfl, fun c hc hf => ?_, (Keeps.refl f h).binds⟩
    have hne : c ≠ cell := fun he => hf (he ▸ hcell)
    rw [content_write, if_neg fun hw => hne hw.1]
  · rw [he]
    exact keeps_declare f h name value

/-- A new frame that binds only cells of the frame. -/
theorem keeps_addFrame {fr : Frame} (hfr : ∀ c ∈ fr.slots.values, c ∈ h.cellsOf f) :
    Keeps f h (h.addFrame fr).2 where
  frames_le := by
    rw [frames_addFrame]
    exact Nat.le_succ _
  cells_le := Nat.le_refl _
  frame g hg _ := by rw [frame_addFrame, if_neg (Nat.ne_of_lt hg)]
  content _ _ _ := rfl
  binds g hg c hc := by
    rw [cellsOf, frame_addFrame] at hc
    split at hc
    · exact .inl (hfr c hc)
    · exact (Keeps.refl f h).binds g hg c hc

theorem keeps_declareAll (f : FrameId) (h : Heap) (bindings : List (String × Option Value)) :
    Keeps f h (h.declareAll f bindings) := by
  induction bindings generalizing h with
  | nil => exact Keeps.refl f h
  | cons entry rest ih => exact (keeps_declare f h _ _).trans (ih _)

/-- A call changes nothing that was there before it. -/
theorem keeps_call {name : String} {bindings : List (String × Option Value)}
    (hbody : Keeps (h.enter g name bindings).1 (h.enter g name bindings).2 h₂) :
    Keeps f h h₂ := by
  have henclose : Keeps h.frames.size h (h.enclose g name).2 :=
    keeps_addFrame fun c hc => by cases hc
  have henter : Keeps h.frames.size h (h.enter g name bindings).2 :=
    henclose.trans (keeps_declareAll _ _ bindings)
  have hall : Keeps h.frames.size h h₂ := henter.trans hbody
  have hnone : h.cellsOf h.frames.size = [] := cellsOf_of_le (Nat.le_refl _)
  have hbinds : ∀ g', h.frames.size ≤ g' → ∀ c ∈ h₂.cellsOf g', h.cells.size ≤ c := by
    intro g' hg' c hc
    rcases hall.binds g' (.inr hg') c hc with hc | hc
    · rw [hnone] at hc
      cases hc
    · exact hc
  refine ⟨hall.frames_le, hall.cells_le, fun g' hg' _ => hall.frame g' hg' (Nat.ne_of_lt hg'),
    fun c hc _ => hall.content c hc (by rw [hnone]; exact List.not_mem_nil), fun g' hg' c hc => ?_⟩
  by_cases hlt : g' < h.frames.size
  · rw [cellsOf_eq (hall.frame g' hlt (Nat.ne_of_lt hlt))] at hc
    exact (Keeps.refl f h).binds g' hg' c hc
  · exact .inr (hbinds g' (Nat.not_lt.1 hlt) c hc)

instance : Path Keeps where
  stay := Keeps.refl
  trans := Keeps.trans
  declare := keeps_declare
  assign := keeps_assign
  capture _ _ := keeps_addFrame fun _ hc => hc
  call := keeps_call

end Heap

/-- **A call has no side effect on what was there before.** Whatever it comes to, every
frame is as it was, and every cell has the content that it had. The evaluation of any tree
in a frame changes only that frame and the cells that it binds at the start. -/
theorem apply_keeps (rounds depth : Nat) (h : Heap) :
    (∀ span callee function args,
      let h' := (Run.apply (evalTask rounds depth) span callee function args).after h
      (∀ g < h.frames.size, h'.frame g = h.frame g) ∧
      ∀ c < h.cells.size, h'.content c = h.content c) ∧
    ∀ n f,
      let h' := (evalNode rounds depth n f).after h
      (∀ g < h.frames.size, g ≠ f → h'.frame g = h.frame g) ∧
      ∀ c < h.cells.size, c ∉ h.cellsOf f → h'.content c = h.content c := by
  constructor
  · intro span callee function args h'
    -- a frame that is not there yet binds no cells
    have hkeeps : h.Keeps h.frames.size h' :=
      (Run.Along.apply span callee function args : Run.Along Heap.Keeps h.frames.size _).run h
    refine ⟨fun g hg => hkeeps.frame g hg (Nat.ne_of_lt hg), fun c hc => hkeeps.content c hc ?_⟩
    rw [Heap.cellsOf_of_le (Nat.le_refl _)]
    exact List.not_mem_nil
  · intro n f h'
    have hkeeps : h.Keeps f h' := (evalNode_along rounds depth n f).run h
    exact ⟨hkeeps.frame, hkeeps.content⟩

end Ember

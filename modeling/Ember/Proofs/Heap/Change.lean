import Ember.Heap

/-!
# Changes of the heap

What each way to change the heap does to its frames and cells. A declaration changes one
slot of one frame and adds a cell, an assignment does the same or changes one cell, a new
frame leaves all others as they were.
-/

namespace Ember

/-! ## Maps -/

namespace OrderedMap

variable {κ α : Type} [DecidableEq κ]

/-- The values in the order of their keys. -/
def values (m : OrderedMap κ α) : List α :=
  m.entries.map Prod.snd

theorem mem_values_of_get? {m : OrderedMap κ α} {key : κ} {value : α}
    (h : m.get? key = some value) : value ∈ m.values := by
  unfold get? at h
  obtain ⟨entry, hfind, rfl⟩ := Option.map_eq_some_iff.1 h
  exact List.mem_map_of_mem (List.mem_of_find?_eq_some hfind)

/-- Putting a value adds at most that value. -/
theorem mem_values_put {m : OrderedMap κ α} {key : κ} {value v : α}
    (h : v ∈ (m.put key value).values) : v = value ∨ v ∈ m.values := by
  obtain ⟨entries⟩ := m
  change v ∈ (putEntry key value entries).map Prod.snd at h
  change v = value ∨ v ∈ entries.map Prod.snd
  induction entries with
  | nil =>
    rw [putEntry, List.map_singleton, List.mem_singleton] at h
    exact .inl h
  | cons entry rest ih =>
    obtain ⟨k, w⟩ := entry
    rw [putEntry] at h
    split at h
    · rcases List.mem_cons.1 h with rfl | h
      · exact .inl rfl
      · exact .inr (List.mem_cons_of_mem _ h)
    · rcases List.mem_cons.1 h with rfl | h
      · exact .inr (List.mem_cons_self ..)
      · exact (ih h).imp_right (List.mem_cons_of_mem _)

end OrderedMap

/-! ## Frames and cells -/

namespace Heap

variable {h : Heap} {f g : FrameId} {c : CellId} {name : String} {value : Option Value}

/-- The cells that a frame itself binds. -/
def cellsOf (h : Heap) (f : FrameId) : List CellId :=
  (h.frame f).slots.values

theorem cellsOf_eq {h' : Heap} (hf : h'.frame f = h.frame f) : h'.cellsOf f = h.cellsOf f := by
  rw [cellsOf, cellsOf, hf]

/-- A frame that is not there is empty. -/
theorem frame_of_le (hf : h.frames.size ≤ f) : h.frame f = { name := "" } := by
  simp [frame, Array.getD, Nat.not_lt.2 hf]

theorem cellsOf_of_le (hf : h.frames.size ≤ f) : h.cellsOf f = [] := by
  rw [cellsOf, frame_of_le hf]
  rfl

/-! ### New frames -/

/-- A new frame takes the next number and leaves the others alone. -/
theorem frame_addFrame (h : Heap) (fr : Frame) (f : FrameId) :
    (h.addFrame fr).2.frame f = if f = h.frames.size then fr else h.frame f := by
  simp only [addFrame, frame, Array.getD_eq_getD_getElem?, Array.getElem?_push]
  split <;> rfl

theorem frames_addFrame (h : Heap) (fr : Frame) :
    (h.addFrame fr).2.frames.size = h.frames.size + 1 := by
  simp [addFrame]

/-! ### Declarations -/

theorem frames_declare (h : Heap) (f : FrameId) (name : String) (value : Option Value) :
    (h.declare f name value).frames.size = h.frames.size := by
  simp [declare]

theorem cells_declare (h : Heap) (f : FrameId) (name : String) (value : Option Value) :
    (h.declare f name value).cells.size = h.cells.size + 1 := by
  simp [declare]

/-- A declaration leaves other frames alone. -/
theorem frame_declare_of_ne (hf : g ≠ f) : (h.declare f name value).frame g = h.frame g := by
  simp [declare, frame, Array.getD_eq_getD_getElem?, Array.getElem?_modify, hf.symm]

/-- A declaration binds the name to the next cell. -/
theorem frame_declare (hf : f < h.frames.size) :
    (h.declare f name value).frame f =
      { h.frame f with slots := (h.frame f).slots.put name h.cells.size } := by
  simp only [declare, frame, Array.getD_eq_getD_getElem?, Array.getElem?_modify, if_true,
    Array.getElem?_eq_getElem hf, Option.map_some, Option.getD_some]

/-- A declaration moves no frame. -/
theorem outers_declare (h : Heap) (f : FrameId) (name : String) (value : Option Value)
    (g : FrameId) : ((h.declare f name value).frame g).outers = (h.frame g).outers := by
  by_cases hg : g = f
  · subst hg
    by_cases hf : g < h.frames.size
    · rw [frame_declare hf]
    · rw [frame_of_le (Nat.not_lt.1 hf), frame_of_le]
      rw [frames_declare]
      exact Nat.not_lt.1 hf
  · rw [frame_declare_of_ne hg]

/-- A declaration changes the slots of its frame only, if the frame is there. -/
theorem slots_declare (h : Heap) (f : FrameId) (name : String) (value : Option Value)
    (g : FrameId) : ((h.declare f name value).frame g).slots =
      if g = f ∧ f < h.frames.size then (h.frame g).slots.put name h.cells.size
      else (h.frame g).slots := by
  by_cases hg : g = f
  · subst hg
    by_cases hf : g < h.frames.size
    · rw [frame_declare hf, if_pos ⟨rfl, hf⟩]
    · rw [if_neg fun hall => hf hall.2, frame_of_le (Nat.not_lt.1 hf), frame_of_le]
      rw [frames_declare]
      exact Nat.not_lt.1 hf
  · rw [frame_declare_of_ne hg, if_neg fun hall => hg hall.1]

/-- The next cell gets the value, and the others keep theirs. -/
theorem content_declare (h : Heap) (f : FrameId) (name : String) (value : Option Value)
    (c : CellId) :
    (h.declare f name value).content c = if c = h.cells.size then value else h.content c := by
  simp only [declare, content, Array.getD_eq_getD_getElem?, Array.getElem?_push]
  split <;> rfl

/-- A declaration binds no old cell anew. -/
theorem mem_cellsOf_declare (hc : c ∈ (h.declare f name value).cellsOf g) :
    c = h.cells.size ∨ c ∈ h.cellsOf g := by
  by_cases hg : g = f
  · subst hg
    by_cases hf : g < h.frames.size
    · rw [cellsOf, frame_declare hf] at hc
      exact OrderedMap.mem_values_put hc
    · rw [cellsOf_of_le (by rw [frames_declare]; exact Nat.not_lt.1 hf)] at hc
      cases hc
  · rw [cellsOf, frame_declare_of_ne hg] at hc
    exact .inr hc

/-! ### Assignments -/

/-- An assignment writes to a cell of its frame, or declares the name. -/
theorem assign_cases (h : Heap) (f : FrameId) (name : String) (value : Option Value) :
    (∃ c ∈ h.cellsOf f, h.assign f name value = { h with cells := h.cells.setIfInBounds c value }) ∨
      h.assign f name value = h.declare f name value := by
  unfold assign
  split
  · next c hc => exact .inl ⟨c, OrderedMap.mem_values_of_get? hc, rfl⟩
  · exact .inr rfl

theorem frames_assign (h : Heap) (f : FrameId) (name : String) (value : Option Value) :
    (h.assign f name value).frames.size = h.frames.size := by
  rcases assign_cases h f name value with ⟨cell, -, he⟩ | he
  · rw [he]
  · rw [he, frames_declare]

/-- An assignment moves no frame. -/
theorem outers_assign (h : Heap) (f : FrameId) (name : String) (value : Option Value)
    (g : FrameId) : ((h.assign f name value).frame g).outers = (h.frame g).outers := by
  rcases assign_cases h f name value with ⟨cell, -, he⟩ | he
  · rw [he]
    rfl
  · rw [he, outers_declare]

/-- A write changes its cell only, if the cell is there. -/
theorem content_write (h : Heap) (cell : CellId) (value : Option Value) (c : CellId) :
    ({ h with cells := h.cells.setIfInBounds cell value } : Heap).content c =
      if c = cell ∧ cell < h.cells.size then value else h.content c := by
  simp only [content, Array.getD_eq_getD_getElem?, Array.getElem?_setIfInBounds]
  by_cases hc : cell = c
  · subst hc
    by_cases hs : cell < h.cells.size <;> simp [hs]
  · rw [if_neg hc, if_neg (fun h => hc h.1.symm)]

end Heap

end Ember

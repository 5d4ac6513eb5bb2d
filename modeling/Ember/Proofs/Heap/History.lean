import Ember.Proofs.Heap.Change

/-!
# Histories of a heap

A heap grows by four kinds of change. A history says what a heap has come to by some
changes, and which of its frames are snapshots, that is, were made by capturing.

Snapshots share the cells of the frame that they were taken of, and other frames share no
cells (`History.Owned`). So a cell that its frame has given up, by declaring the name
again, keeps its content as long as no snapshot is written to (`History.Abandoned.run`),
and a snapshot follows its frame up to that point (`History.Owned.get?_capture`).
-/

namespace Ember

namespace OrderedMap

variable {κ α : Type} [DecidableEq κ]

/-- A key that is put is found with its value, and the others as before. -/
theorem get?_put (m : OrderedMap κ α) (key key' : κ) (value : α) :
    (m.put key value).get? key' = if key = key' then some value else m.get? key' := by
  obtain ⟨entries⟩ := m
  unfold get? put
  induction entries with
  | nil =>
    by_cases h : key = key'
    · simp [putEntry, h]
    · simp [putEntry, h]
  | cons entry rest ih =>
    obtain ⟨k, v⟩ := entry
    rw [putEntry]
    by_cases hk : k = key
    · subst hk
      by_cases h : k = key'
      · simp [h]
      · simp [h]
    · rw [if_neg hk]
      by_cases h : k = key'
      · subst h
        simp [Ne.symm hk]
      · simpa [h] using ih

end OrderedMap

namespace Heap

/-! ## Slots -/

/-- The cell that a frame itself binds a name to. -/
def slot? (h : Heap) (f : FrameId) (name : String) : Option CellId :=
  (h.frame f).slots.get? name

section

variable {h : Heap} {f g : FrameId} {x y : String} {cell : CellId} {value : Option Value}

theorem slot?_eq {h' : Heap} (hf : h'.frame f = h.frame f) : h'.slot? f x = h.slot? f x := by
  rw [slot?, slot?, hf]

/-- A frame that is not there binds nothing. -/
theorem slot?_of_le (hf : h.frames.size ≤ f) : h.slot? f x = none := by
  rw [slot?, frame_of_le hf]
  rfl

/-- A declaration binds the name to a new cell, in a frame that is there. -/
theorem slot?_declare (h : Heap) (f g : FrameId) (x y : String) (value : Option Value) :
    (h.declare f x value).slot? g y =
      if g = f ∧ f < h.frames.size ∧ x = y then some h.cells.size else h.slot? g y := by
  unfold slot?
  rw [slots_declare]
  by_cases hall : g = f ∧ f < h.frames.size
  · rw [if_pos hall, OrderedMap.get?_put]
    simp only [hall, true_and]
  · rw [if_neg hall, if_neg fun h' => hall ⟨h'.1, h'.2.1⟩]

/-- An assignment writes to the cell that the frame binds the name to. -/
theorem assign_of_slot (hs : h.slot? f x = some cell) :
    h.assign f x value = { h with cells := h.cells.setIfInBounds cell value } := by
  unfold slot? at hs
  simp only [assign, hs]

/-- An assignment to a name that the frame does not bind declares it. -/
theorem assign_of_no_slot (hs : h.slot? f x = none) : h.assign f x value = h.declare f x value := by
  unfold slot? at hs
  simp only [assign, hs]

/-- A name that the frame itself binds is not looked up any further. -/
theorem get?_of_slot (hs : h.slot? f x = some cell) : h.get? f x = some (h.content cell) := by
  unfold slot? at hs
  simp [get?, lookup, chain, hs]

/-- A name that the frame itself does not bind is looked up in the frames around it. -/
theorem get?_of_no_slot (hs : h.slot? g x = none)
    (ho : (h.frame g).outers = f :: (h.frame f).outers) : h.get? g x = h.get? f x := by
  unfold slot? at hs
  simp [get?, lookup, chain, hs, ho]

end

/-! ## Changes -/

/-- The ways to change a heap. -/
inductive Change where
  | enclose (f : FrameId) (name : String)
  | capture (f : FrameId)
  | declare (f : FrameId) (name : String) (value : Option Value)
  | assign (f : FrameId) (name : String) (value : Option Value)

/-- The heap after a change. -/
def change (h : Heap) : Change → Heap
  | .enclose f name => (h.enclose f name).2
  | .capture f => (h.capture f).2
  | .declare f name value => h.declare f name value
  | .assign f name value => h.assign f name value

/-- The frame that a change writes to, if it writes to one, and the name that it writes. -/
def Change.target? : Change → Option (FrameId × String)
  | .declare f name _ | .assign f name _ => some (f, name)
  | .enclose .. | .capture _ => none

/-- Whether a change declares the name in the frame. -/
def Change.declares (f : FrameId) (name : String) : Change → Bool
  | .declare g other _ => g = f ∧ other = name
  | _ => false

/-- What a heap has come to, and those of its frames that were made by capturing. -/
structure History where
  heap : Heap
  snapshots : List FrameId

namespace History

/-- The heap of a program at its start. -/
def initial : History :=
  { heap := .initial, snapshots := [] }

/-- The history with one more change. -/
def step (s : History) (c : Change) : History where
  heap := s.heap.change c
  snapshots := match c with
    | .capture _ => s.heap.frames.size :: s.snapshots
    | _ => s.snapshots

/-- The history with more changes, one after the other. -/
def run (s : History) (cs : List Change) : History :=
  cs.foldl step s

/-- The changes, one after the other, write to no snapshot. -/
def Spares (s : History) : List Change → Prop
  | [] => True
  | c :: cs => (∀ t ∈ c.target?, t.1 ∉ s.snapshots) ∧ (s.step c).Spares cs

variable {s : History} {c : Change} {cs ds : List Change} {f g : FrameId} {x y : String}
  {cell : CellId}

@[simp] theorem run_nil (s : History) : s.run [] = s := rfl

@[simp] theorem run_cons (s : History) (c : Change) (cs : List Change) :
    s.run (c :: cs) = (s.step c).run cs := rfl

theorem run_append (s : History) (cs ds : List Change) :
    s.run (cs ++ ds) = (s.run cs).run ds :=
  List.foldl_append

/-- Changes spare the snapshots if the first ones do and the others do behind them. -/
theorem spares_append : s.Spares (cs ++ ds) ↔ s.Spares cs ∧ (s.run cs).Spares ds := by
  induction cs generalizing s with
  | nil => simp [Spares]
  | cons c cs ih => simp only [List.cons_append, Spares, run_cons, ih, and_assoc]

/-! ## Frames -/

/-- No change takes a frame away. -/
theorem frames_step_le (s : History) (c : Change) :
    s.heap.frames.size ≤ (s.step c).heap.frames.size := by
  unfold step change
  cases c with
  | enclose f name => exact Nat.le_of_lt (by simp [enclose, frames_addFrame])
  | capture f => exact Nat.le_of_lt (by simp [capture, frames_addFrame])
  | declare f name value => exact Nat.le_of_eq (frames_declare ..).symm
  | assign f name value => exact Nat.le_of_eq (frames_assign ..).symm

/-- A change leaves a frame that it does not write to as it was. -/
theorem frame_step (hg : g < s.heap.frames.size) (hc : ∀ t ∈ c.target?, t.1 ≠ g) :
    (s.step c).heap.frame g = s.heap.frame g := by
  unfold step change
  cases c with
  | enclose f name => exact (frame_addFrame ..).trans (if_neg (Nat.ne_of_lt hg))
  | capture f => exact (frame_addFrame ..).trans (if_neg (Nat.ne_of_lt hg))
  | declare f name value => exact frame_declare_of_ne (hc _ rfl).symm
  | assign f name value =>
    rcases assign_cases s.heap f name value with ⟨cell, -, he⟩ | he
    · simp only [he]
      rfl
    · simp only [he]
      exact frame_declare_of_ne (hc _ rfl).symm

/-- The frames around a frame stay the same. -/
theorem outers_step (hg : g < s.heap.frames.size) :
    ((s.step c).heap.frame g).outers = (s.heap.frame g).outers := by
  cases c with
  | enclose f name => exact congrArg Frame.outers (frame_step hg nofun)
  | capture f => exact congrArg Frame.outers (frame_step hg nofun)
  | declare f name value => exact outers_declare s.heap f name value g
  | assign f name value => exact outers_assign s.heap f name value g

/-- A change adds at most one snapshot, the frame that it makes. -/
theorem mem_snapshots_step (hf : f ∈ (s.step c).snapshots) :
    f ∈ s.snapshots ∨ f = s.heap.frames.size ∧ f < (s.step c).heap.frames.size := by
  unfold step at hf ⊢
  cases c with
  | capture g =>
    rcases List.mem_cons.1 hf with rfl | hf
    · exact .inr ⟨rfl, by simp [change, capture, frames_addFrame]⟩
    · exact .inl hf
  | _ => exact .inl hf

/-- A snapshot stays one. -/
theorem snapshots_step (hf : f ∈ s.snapshots) : f ∈ (s.step c).snapshots := by
  unfold step
  cases c with
  | capture g => exact List.mem_cons_of_mem _ hf
  | _ => exact hf

/-- The snapshots are frames of the heap. -/
def Placed (s : History) : Prop :=
  ∀ f ∈ s.snapshots, f < s.heap.frames.size

/-- Snapshots stay frames of the heap. -/
theorem Placed.step (hs : s.Placed) (c : Change) : (s.step c).Placed := by
  intro f hf
  rcases mem_snapshots_step hf with hf | ⟨-, hf⟩
  · exact Nat.lt_of_lt_of_le (hs f hf) (frames_step_le s c)
  · exact hf

/-- Snapshots are frames of the heap after any changes. -/
theorem Placed.run (hs : s.Placed) (cs : List Change) : (s.run cs).Placed := by
  induction cs generalizing s with
  | nil => exact hs
  | cons c cs ih => exact ih (hs.step c)

/-- The frame is there, and no snapshot. -/
structure Live (s : History) (f : FrameId) : Prop where
  lt : f < s.heap.frames.size
  notMem : f ∉ s.snapshots

/-- A frame that is no snapshot never becomes one. -/
theorem Live.step (hf : s.Live f) (c : Change) : (s.step c).Live f where
  lt := Nat.lt_of_lt_of_le hf.lt (frames_step_le s c)
  notMem := by
    intro hm
    rcases mem_snapshots_step hm with hm | ⟨rfl, -⟩
    · exact hf.notMem hm
    · exact Nat.lt_irrefl _ hf.lt

/-- A frame that is no snapshot never becomes one. -/
theorem Live.run (hf : s.Live f) (cs : List Change) : (s.run cs).Live f := by
  induction cs generalizing s with
  | nil => exact hf
  | cons c cs ih => exact ih (hf.step c)

/-! ## Owners of cells -/

/-- What a frame binds after a change it bound before, or the frame is a new snapshot and
shares the cell with another frame, or the change made the cell for it. -/
theorem slot?_step (hg : (s.step c).heap.slot? g y = some cell) :
    s.heap.slot? g y = some cell ∨
      (g = s.heap.frames.size ∧ g ∈ (s.step c).snapshots ∧ ∃ f, s.heap.slot? f y = some cell) ∨
      (c.target? = some (g, y) ∧ cell = s.heap.cells.size ∧
        cell < (s.step c).heap.cells.size) := by
  have hdeclare : ∀ f x value, (s.heap.declare f x value).slot? g y = some cell →
      s.heap.slot? g y = some cell ∨ (some (f, x) = some (g, y) ∧ cell = s.heap.cells.size ∧
        cell < (s.heap.declare f x value).cells.size) := by
    intro f x value hd
    rw [slot?_declare] at hd
    split at hd
    · next hall =>
      obtain ⟨rfl, -, rfl⟩ := hall
      obtain rfl := Option.some.inj hd
      exact .inr ⟨rfl, rfl, by rw [cells_declare]; exact Nat.lt_succ_self _⟩
    · exact .inl hd
  cases c with
  | enclose f name =>
    simp only [slot?, step, change, enclose, frame_addFrame] at hg
    split at hg
    · cases hg
    · exact .inl hg
  | capture f =>
    simp only [slot?, step, change, capture, frame_addFrame] at hg
    split at hg
    · next he => exact .inr (.inl ⟨he, he ▸ List.mem_cons_self .., f, hg⟩)
    · exact .inl hg
  | declare f x value => exact (hdeclare f x value hg).imp_right .inr
  | assign f x value =>
    unfold step change at hg ⊢
    rcases assign_cases s.heap f x value with ⟨other, -, he⟩ | he
    · simp only [he] at hg
      exact .inl hg
    · simp only [he] at hg ⊢
      exact (hdeclare f x value hg).imp_right .inr

/-- No change takes a cell away. -/
theorem cells_step_le (s : History) (c : Change) :
    s.heap.cells.size ≤ (s.step c).heap.cells.size := by
  unfold step change
  cases c with
  | enclose f name => exact Nat.le_refl _
  | capture f => exact Nat.le_refl _
  | declare f name value => exact Nat.le_of_lt (by simp [cells_declare])
  | assign f name value =>
    rcases assign_cases s.heap f name value with ⟨cell, -, he⟩ | he
    · exact Nat.le_of_eq (by simp [he])
    · exact Nat.le_of_lt (by simp [he, cells_declare])

/-- A cell that is bound exists, and of the frames that are no snapshots only one binds
it, under one name. -/
structure Owned (s : History) : Prop where
  placed : s.Placed
  cells_lt : ∀ {f x cell}, s.heap.slot? f x = some cell → cell < s.heap.cells.size
  unique : ∀ {f g x y cell}, f ∉ s.snapshots → g ∉ s.snapshots →
    s.heap.slot? f x = some cell → s.heap.slot? g y = some cell → f = g ∧ x = y

theorem slot?_initial (f : FrameId) (x : String) : initial.heap.slot? f x = none := by
  cases f with
  | zero => rfl
  | succ f => exact slot?_of_le (Nat.le_add_left 1 f)

/-- At the start nothing is bound. -/
theorem owned_initial : initial.Owned where
  placed := fun f hf => by cases hf
  cells_lt := fun {f x cell} hs => by rw [slot?_initial] at hs; cases hs
  unique := fun {f g x y cell} _ _ hs _ => by rw [slot?_initial] at hs; cases hs

/-- A change binds new cells only, or those of one frame to its snapshot. -/
theorem Owned.step (hs : s.Owned) (c : Change) : (s.step c).Owned where
  placed := hs.placed.step c
  cells_lt := by
    intro f x cell hc
    rcases slot?_step hc with hc | ⟨-, -, g, hc⟩ | ⟨-, -, hc⟩
    · exact Nat.lt_of_lt_of_le (hs.cells_lt hc) (cells_step_le s c)
    · exact Nat.lt_of_lt_of_le (hs.cells_lt hc) (cells_step_le s c)
    · exact hc
  unique := by
    intro f g x y cell hf hg hfx hgy
    have hold : ∀ {f}, f ∉ (s.step c).snapshots → f ∉ s.snapshots :=
      fun hf hm => hf (snapshots_step hm)
    rcases slot?_step hfx with hfx | ⟨-, hm, -⟩ | ⟨htf, he, -⟩
    · rcases slot?_step hgy with hgy | ⟨-, hm, -⟩ | ⟨-, rfl, -⟩
      · exact hs.unique (hold hf) (hold hg) hfx hgy
      · exact absurd hm hg
      · exact absurd (hs.cells_lt hfx) (Nat.lt_irrefl _)
    · exact absurd hm hf
    · rcases slot?_step hgy with hgy | ⟨-, hm, -⟩ | ⟨htg, -, -⟩
      · exact absurd (he ▸ hs.cells_lt hgy) (Nat.lt_irrefl _)
      · exact absurd hm hg
      · obtain ⟨rfl, rfl⟩ := Prod.mk.inj (Option.some.inj (htf.symm.trans htg))
        exact ⟨rfl, rfl⟩

/-- **After any changes each cell is bound by one frame that is no snapshot, under one name.** -/
theorem Owned.run (hs : s.Owned) (cs : List Change) : (s.run cs).Owned := by
  induction cs generalizing s with
  | nil => exact hs
  | cons c cs ih => exact ih (hs.step c)

/-! ## What a snapshot shares -/

/-- No frame but snapshots binds the cell. -/
structure Abandoned (s : History) (cell : CellId) : Prop where
  lt : cell < s.heap.cells.size
  unbound : ∀ f x, f ∉ s.snapshots → s.heap.slot? f x ≠ some cell

/-- A change leaves a cell alone that it does not write a name of. -/
theorem content_step (hlt : cell < s.heap.cells.size)
    (hc : ∀ t ∈ c.target?, s.heap.slot? t.1 t.2 ≠ some cell) :
    (s.step c).heap.content cell = s.heap.content cell := by
  have hdeclare : ∀ f x value, (s.heap.declare f x value).content cell = s.heap.content cell :=
    fun f x value => (content_declare ..).trans (if_neg (Nat.ne_of_lt hlt))
  cases c with
  | enclose f name => rfl
  | capture f => rfl
  | declare f x value => exact hdeclare f x value
  | assign f x value =>
    cases hs : s.heap.slot? f x with
    | none => exact (congrArg (content · cell) (assign_of_no_slot hs)).trans (hdeclare f x value)
    | some other =>
      have hne : cell ≠ other := fun he => hc _ rfl (he ▸ hs)
      calc ((s.heap.assign f x value).content cell)
          = ({ s.heap with cells := s.heap.cells.setIfInBounds other value } : Heap).content
              cell := by rw [assign_of_slot hs]
        _ = s.heap.content cell := (content_write ..).trans (if_neg fun hall => hne hall.1)

/-- A change that writes to no snapshot leaves alone a cell that only snapshots bind. -/
theorem Abandoned.step (ha : s.Abandoned cell) (hc : ∀ t ∈ c.target?, t.1 ∉ s.snapshots) :
    (s.step c).Abandoned cell ∧ (s.step c).heap.content cell = s.heap.content cell := by
  refine ⟨⟨Nat.lt_of_lt_of_le ha.lt (cells_step_le s c), fun f x hf hs => ?_⟩,
    content_step ha.lt fun t ht => ha.unbound t.1 t.2 (hc t ht)⟩
  rcases slot?_step hs with hs | ⟨-, hm, -⟩ | ⟨-, rfl, -⟩
  · exact ha.unbound f x (fun hm => hf (snapshots_step hm)) hs
  · exact hf hm
  · exact Nat.lt_irrefl _ ha.lt

/-- The snapshot binds the name to the cell that a frame which is no snapshot binds it to. -/
structure Shares (s : History) (snapshot f : FrameId) (x : String) (cell : CellId) : Prop where
  mem : snapshot ∈ s.snapshots
  live : s.Live f
  shared : s.heap.slot? snapshot x = some cell
  owned : s.heap.slot? f x = some cell

/-- A change leaves a slot as it was that it does not write. -/
theorem slot?_step_of_not_target (hg : g < s.heap.frames.size) (hc : c.target? ≠ some (g, x)) :
    (s.step c).heap.slot? g x = s.heap.slot? g x := by
  have hdeclare : ∀ f y value, some (f, y) ≠ some (g, x) →
      (s.heap.declare f y value).slot? g x = s.heap.slot? g x := fun f y value hne =>
    (slot?_declare ..).trans (if_neg fun hall => hne (by rw [hall.1, hall.2.2]))
  cases c with
  | enclose f name => exact slot?_eq (frame_step hg nofun)
  | capture f => exact slot?_eq (frame_step hg nofun)
  | declare f y value => exact hdeclare f y value hc
  | assign f y value =>
    unfold step change
    cases hs : s.heap.slot? f y with
    | some other =>
      simp only [assign_of_slot hs]
      rfl
    | none =>
      simp only [assign_of_no_slot hs]
      exact hdeclare f y value hc

/-- A change that writes to no snapshot leaves their slots as they were. -/
theorem Owned.slot?_step (hs : s.Owned) (hf : f ∈ s.snapshots)
    (hc : ∀ t ∈ c.target?, t.1 ∉ s.snapshots) : (s.step c).heap.slot? f x = s.heap.slot? f x :=
  slot?_step_of_not_target (hs.placed f hf) fun ht => hc _ ht hf

/-- A binding stays at its cell if the name is not declared again. -/
theorem slot?_step_of_not_declares (hf : f < s.heap.frames.size)
    (hx : s.heap.slot? f x = some cell) (hc : c.declares f x = false) :
    (s.step c).heap.slot? f x = some cell := by
  cases c with
  | enclose g name => exact (slot?_eq (frame_step hf fun t ht => by cases ht)).trans hx
  | capture g => exact (slot?_eq (frame_step hf fun t ht => by cases ht)).trans hx
  | declare g y value =>
    refine (slot?_declare ..).trans ((if_neg fun hall => ?_).trans hx)
    obtain ⟨rfl, -, rfl⟩ := hall
    simp [Change.declares] at hc
  | assign g y value =>
    unfold step change
    cases hs : s.heap.slot? g y with
    | some other =>
      simp only [assign_of_slot hs]
      exact hx
    | none =>
      simp only [assign_of_no_slot hs]
      refine (slot?_declare ..).trans ((if_neg fun hall => ?_).trans hx)
      obtain ⟨rfl, -, rfl⟩ := hall
      rw [hs] at hx
      cases hx

/-- Frame and snapshot go on sharing a cell until the name is declared again. -/
theorem Shares.step (h : s.Shares g f x cell) (hs : s.Owned)
    (hc : ∀ t ∈ c.target?, t.1 ∉ s.snapshots) (hd : c.declares f x = false) :
    (s.step c).Shares g f x cell where
  mem := snapshots_step h.mem
  live := h.live.step c
  shared := (hs.slot?_step h.mem hc).trans h.shared
  owned := slot?_step_of_not_declares h.live.lt h.owned hd

/-- A frame gives the cell of a name up by declaring the name. -/
theorem Shares.abandoned (h : s.Shares g f x cell) (hs : s.Owned) (hd : c.declares f x = true) :
    (s.step c).Abandoned cell ∧ (s.step c).heap.content cell = s.heap.content cell := by
  cases c with
  | enclose => cases hd
  | capture => cases hd
  | assign => cases hd
  | declare f' x' value =>
    obtain ⟨rfl, rfl⟩ : f' = f ∧ x' = x := by simpa [Change.declares] using hd
    have hlt := hs.cells_lt h.owned
    refine ⟨⟨Nat.lt_of_lt_of_le hlt (cells_step_le ..), fun e y he hslot => ?_⟩,
      (content_declare ..).trans (if_neg (Nat.ne_of_lt hlt))⟩
    replace hslot := (slot?_declare ..).symm.trans hslot
    split at hslot
    · exact Nat.ne_of_gt hlt (Option.some.inj hslot)
    · next hall =>
      obtain ⟨rfl, rfl⟩ := hs.unique he h.live.notMem hslot h.owned
      exact hall ⟨rfl, h.live.lt, rfl⟩

/-- What a snapshot binds to an abandoned cell keeps its value for ever. -/
theorem Abandoned.run (ha : s.Abandoned cell) (hs : s.Owned) (hg : g ∈ s.snapshots)
    (hx : s.heap.slot? g x = some cell) (hcs : s.Spares cs) :
    (s.run cs).heap.get? g x = some (s.heap.content cell) := by
  induction cs generalizing s with
  | nil => exact get?_of_slot hx
  | cons c cs ih =>
    obtain ⟨hc, hcs⟩ := hcs
    obtain ⟨ha', he⟩ := ha.step hc
    rw [← he]
    exact ih ha' (hs.step c) (snapshots_step hg) ((hs.slot?_step hg hc).trans hx) hcs

/-- **A snapshot follows the frame that it shares a cell with**, up to the point where the
frame declares the name again. -/
theorem Shares.get?_run (h : s.Shares g f x cell) (hs : s.Owned) (hcs : s.Spares cs) :
    (s.run cs).heap.get? g x =
      (s.run (cs.takeWhile fun c => !c.declares f x)).heap.get? f x := by
  induction cs generalizing s with
  | nil => exact (get?_of_slot h.shared).trans (get?_of_slot h.owned).symm
  | cons c cs ih =>
    obtain ⟨hc, hcs⟩ := hcs
    cases hd : c.declares f x with
    | false =>
      rw [List.takeWhile_cons_of_pos (by rw [hd]; rfl)]
      exact ih (h.step hs hc hd) (hs.step c) hcs
    | true =>
      obtain ⟨ha, he⟩ := h.abandoned hs hd
      rw [List.takeWhile_cons_of_neg (by rw [hd]; exact Bool.false_ne_true)]
      calc ((s.step c).run cs).heap.get? g x
          = some ((s.step c).heap.content cell) :=
            ha.run (hs.step c) (snapshots_step h.mem) ((hs.slot?_step h.mem hc).trans h.shared) hcs
        _ = some (s.heap.content cell) := by rw [he]
        _ = s.heap.get? f x := (get?_of_slot h.owned).symm

/-! ## Names that no change writes -/

/-- No change of the list writes the name in the frame. -/
def Unwritten (f : FrameId) (x : String) (cs : List Change) : Prop :=
  ∀ c ∈ cs, c.target? ≠ some (f, x)

/-- A name stays unwritten by changes in turn if it is by each of them. -/
theorem unwritten_append :
    Unwritten f x (cs ++ ds) ↔ Unwritten f x cs ∧ Unwritten f x ds :=
  List.forall_mem_append

/-- Changes that write to no snapshot write no name of it. -/
theorem Spares.unwritten (hcs : s.Spares cs) (hf : f ∈ s.snapshots) (x : String) :
    Unwritten f x cs := by
  induction cs generalizing s with
  | nil => exact nofun
  | cons c cs ih =>
    exact List.forall_mem_cons.2 ⟨fun ht => hcs.1 _ ht hf, ih hcs.2 (snapshots_step hf)⟩

theorem frames_run_le (s : History) (cs : List Change) :
    s.heap.frames.size ≤ (s.run cs).heap.frames.size := by
  induction cs generalizing s with
  | nil => exact Nat.le_refl _
  | cons c cs ih => exact Nat.le_trans (frames_step_le s c) (ih (s.step c))

/-- The frames around a frame stay the same. -/
theorem outers_run (hg : g < s.heap.frames.size) (cs : List Change) :
    ((s.run cs).heap.frame g).outers = (s.heap.frame g).outers := by
  induction cs generalizing s with
  | nil => rfl
  | cons c cs ih =>
    exact (ih (Nat.lt_of_lt_of_le hg (frames_step_le s c))).trans (outers_step hg)

/-- A name that no change writes stays at its cell. -/
theorem slot?_run (hg : g < s.heap.frames.size) (hcs : Unwritten g x cs) :
    (s.run cs).heap.slot? g x = s.heap.slot? g x := by
  induction cs generalizing s with
  | nil => rfl
  | cons c cs ih =>
    obtain ⟨hc, hcs⟩ := List.forall_mem_cons.1 hcs
    exact (ih (Nat.lt_of_lt_of_le hg (frames_step_le s c)) hcs).trans
      (slot?_step_of_not_target hg hc)

/-- **A frame that does not bind a name follows the frame around it**, while the name is not
written in the frame. -/
theorem get?_run_of_no_slot (hg : g < s.heap.frames.size) (hf : f < s.heap.frames.size)
    (hx : s.heap.slot? g x = none) (ho : (s.heap.frame g).outers = f :: (s.heap.frame f).outers)
    (hcs : Unwritten g x cs) : (s.run cs).heap.get? g x = (s.run cs).heap.get? f x :=
  get?_of_no_slot ((slot?_run hg hcs).trans hx) (by rw [outers_run hg, outers_run hf, ho])

/-- **A name keeps its content** in a frame that is no snapshot, while it is not written there. -/
theorem Owned.get?_run_of_slot (hs : s.Owned) (hf : s.Live f) (hx : s.heap.slot? f x = some cell)
    (hspares : s.Spares cs) (hcs : Unwritten f x cs) :
    (s.run cs).heap.get? f x = s.heap.get? f x := by
  induction cs generalizing s with
  | nil => rfl
  | cons c cs ih =>
    obtain ⟨hc, hcs⟩ := List.forall_mem_cons.1 hcs
    have hslot := (slot?_step_of_not_target hf.lt hc).trans hx
    have hcontent : (s.step c).heap.content cell = s.heap.content cell := by
      refine content_step (hs.cells_lt hx) fun t ht hsame => hc ?_
      -- the frame alone owns the cell
      obtain ⟨hframe, hname⟩ := hs.unique (hspares.1 t ht) hf.notMem hsame hx
      rw [ht, ← hframe, ← hname]
    calc ((s.step c).run cs).heap.get? f x
        = (s.step c).heap.get? f x := ih (hs.step c) (hf.step c) hslot hspares.2 hcs
      _ = s.heap.get? f x := by rw [get?_of_slot hslot, get?_of_slot hx, hcontent]

/-! ## Captures -/

/-- A snapshot has the slots of its frame, and that frame around it. -/
theorem frame_capture (s : History) (f : FrameId) :
    (s.step (.capture f)).heap.frame s.heap.frames.size =
      { name := "closure:" ++ (s.heap.frame f).name, slots := (s.heap.frame f).slots
        outers := s.heap.chain f } :=
  (frame_addFrame ..).trans (if_pos rfl)

/-- Taking a snapshot leaves the other frames alone. -/
theorem frame_capture_of_lt (hf : f < s.heap.frames.size) :
    (s.step (.capture g)).heap.frame f = s.heap.frame f :=
  frame_step hf fun t ht => by cases ht

/-- **What a captured name stands for.** A name that the frame itself bound stands for what
it was bound to there just before it was declared there again; any other name stands for
what it stands for in the frame. -/
theorem Owned.get?_capture (hs : s.Owned) (hf : s.Live f)
    (hcs : (s.step (.capture f)).Spares cs) (x : String) :
    ((s.step (.capture f)).run cs).heap.get? s.heap.frames.size x =
      if (s.heap.slot? f x).isSome then
        ((s.step (.capture f)).run (cs.takeWhile fun c => !c.declares f x)).heap.get? f x
      else ((s.step (.capture f)).run cs).heap.get? f x := by
  have hmem : s.heap.frames.size ∈ (s.step (.capture f)).snapshots := List.mem_cons_self ..
  have hshared : (s.step (.capture f)).heap.slot? s.heap.frames.size x = s.heap.slot? f x := by
    rw [slot?, frame_capture, slot?]
  cases hx : s.heap.slot? f x with
  | some cell =>
    have hshares : (s.step (.capture f)).Shares s.heap.frames.size f x cell :=
      ⟨hmem, hf.step _, hshared.trans hx, (slot?_eq (frame_capture_of_lt hf.lt)).trans hx⟩
    exact hshares.get?_run (hs.step _) hcs
  | none =>
    refine get?_run_of_no_slot ((hs.step _).placed _ hmem) (hf.step _).lt (hshared.trans hx) ?_
      (hcs.unwritten hmem x)
    rw [frame_capture, frame_capture_of_lt hf.lt]
    rfl

end History

end Heap

end Ember

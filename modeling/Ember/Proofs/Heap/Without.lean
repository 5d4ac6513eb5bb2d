import Ember.Proofs.Eval.Path
import Ember.Proofs.Heap.Matching

/-!
# Heaps without a name

`Heap.without h x` is the heap in which no frame binds the name `x`. Nothing else is taken
away: the cells that `x` was bound to are still there. Whatever is done with other names is the
same with the name and without it, up to the name itself.

A cell is bound under one name only (`Heap.Named`), even where snapshots share it. So a change
that writes another name touches neither the cells that `x` is bound to nor what is in them
(`Heap.Untouched`).
-/

namespace Ember

namespace OrderedMap

variable {κ α β : Type} [DecidableEq κ] {key key' : κ}

/-- The map without a key. -/
def without (m : OrderedMap κ α) (key : κ) : OrderedMap κ α :=
  { entries := m.entries.filter fun entry => entry.1 ≠ key }

/-- Without a key the others are found as before. -/
theorem get?_without (m : OrderedMap κ α) (hk : key' ≠ key) :
    (m.without key).get? key' = m.get? key' := by
  obtain ⟨entries⟩ := m
  unfold without get?
  induction entries with
  | nil => rfl
  | cons entry rest ih =>
    by_cases he : entry.1 = key
    · have hne : entry.1 ≠ key' := fun he' => hk (he'.symm.trans he)
      simpa [he, hk.symm] using ih
    · by_cases he' : entry.1 = key'
      · simp [he', hk]
      · simpa [he, he'] using ih

/-- What is found without a key is found with it. -/
theorem get?_of_without {m : OrderedMap κ α} {v : α} (h : (m.without key).get? key' = some v) :
    m.get? key' = some v := by
  by_cases hk : key' = key
  · unfold without get? at h
    obtain ⟨entry, hfind, -⟩ := Option.map_eq_some_iff.1 h
    have hmem := (List.mem_filter.1 (List.mem_of_find?_eq_some hfind)).2
    have hkey := List.find?_some hfind
    simp_all
  · rwa [get?_without m hk] at h

/-- Without a key, putting another one comes to the same before and after. -/
theorem without_put_of_ne (m : OrderedMap κ α) (v : α) (hk : key' ≠ key) :
    (m.put key' v).without key = (m.without key).put key' v := by
  obtain ⟨entries⟩ := m
  unfold without put
  congr 1
  induction entries with
  | nil => simp [putEntry, hk]
  | cons entry rest ih =>
    obtain ⟨k, w⟩ := entry
    by_cases he : k = key
    · simpa [putEntry, he, hk.symm] using ih
    · by_cases he' : k = key'
      · simp [putEntry, he', hk]
      · simpa [putEntry, he, he'] using ih

/-- Putting the key itself leaves no trace without it. -/
theorem without_put_self (m : OrderedMap κ α) (key : κ) (v : α) :
    (m.put key v).without key = m.without key := by
  obtain ⟨entries⟩ := m
  unfold without put
  congr 1
  induction entries with
  | nil => simp [putEntry]
  | cons entry rest ih =>
    obtain ⟨k, w⟩ := entry
    by_cases he : k = key
    · simp [putEntry, he]
    · simpa [putEntry, he] using ih

theorem without_without (m : OrderedMap κ α) (key : κ) :
    (m.without key).without key = m.without key := by
  simp [without]

/-- Related maps stay related without a key. -/
theorem Rel.without {S : α → β → Prop} {m : OrderedMap κ α} {m' : OrderedMap κ β}
    (h : Rel S m m') (key : κ) : Rel S (m.without key) (m'.without key) := by
  obtain ⟨entries⟩ := m
  obtain ⟨entries'⟩ := m'
  replace h : List.Forall₂ _ entries entries' := h
  unfold Rel OrderedMap.without
  induction h with
  | nil => exact .nil
  | @cons e e' rest rest' he _ ih =>
    obtain ⟨hkey, hvalue⟩ := he
    by_cases hk : e.1 = key
    · simpa [hk, ← hkey] using ih
    · rw [List.filter_cons_of_pos (by simpa using hk),
        List.filter_cons_of_pos (by simpa [← hkey] using hk)]
      exact .cons ⟨hkey, hvalue⟩ ih

end OrderedMap

/-- The frame without a name. -/
def Frame.without (fr : Frame) (x : String) : Frame :=
  { fr with slots := fr.slots.without x }

namespace Heap

variable {h h' g g' : Heap} {f f' : FrameId} {x y : String} {value : Option Value}

/-- The heap in which no frame binds the name. -/
def without (h : Heap) (x : String) : Heap :=
  { h with frames := h.frames.map fun fr => fr.without x }

/-! ## What is seen without the name -/

theorem frame_without (h : Heap) (x : String) (f : FrameId) :
    (h.without x).frame f = (h.frame f).without x := by
  unfold without frame
  rw [Array.getD_eq_getD_getElem?, Array.getD_eq_getD_getElem?, Array.getElem?_map]
  cases h.frames[f]? <;> rfl

theorem frames_without (h : Heap) (x : String) : (h.without x).frames.size = h.frames.size := by
  simp [without]

theorem outers_without (h : Heap) (x : String) (f : FrameId) :
    ((h.without x).frame f).outers = (h.frame f).outers := by
  rw [frame_without]
  rfl

theorem slots_without (h : Heap) (x : String) (f : FrameId) :
    ((h.without x).frame f).slots = (h.frame f).slots.without x := by
  rw [frame_without]
  rfl

/-- Taking a name away changes no chain of frames. -/
theorem chain_without (h : Heap) (x : String) (f : FrameId) :
    (h.without x).chain f = h.chain f := by
  rw [chain, outers_without, chain]

/-- The slots of other names stay. -/
theorem slot?_without (h : Heap) (f : FrameId) (hy : y ≠ x) :
    (h.without x).slot? f y = h.slot? f y := by
  rw [slot?, slots_without, OrderedMap.get?_without _ hy, slot?]

/-- A slot that is left was there before. -/
theorem slot?_of_without {c : CellId} (hs : (h.without x).slot? f y = some c) :
    h.slot? f y = some c := by
  rw [slot?, slots_without] at hs
  exact OrderedMap.get?_of_without hs

/-- Another name stands for the same. -/
theorem get?_without (h : Heap) (f : FrameId) (hy : y ≠ x) :
    (h.without x).get? f y = h.get? f y := by
  have hslot : (fun g => ((h.without x).frame g).slots.get? y) =
      fun g => (h.frame g).slots.get? y := funext fun g => slot?_without h g hy
  unfold get? lookup
  rw [chain_without, hslot]
  rfl

theorem without_without (h : Heap) (x : String) : (h.without x).without x = h.without x := by
  simp [without, Frame.without, OrderedMap.without_without]

/-! ## Changes without the name -/

/-- A frame that is added is added without the name. -/
theorem without_addFrame (h : Heap) (fr : Frame) (x : String) :
    (h.addFrame fr).2.without x = ((h.without x).addFrame (fr.without x)).2 := by
  simp [addFrame, without]

/-- A new inner frame has no names, so none is taken away. -/
theorem without_enclose (h : Heap) (f : FrameId) (name x : String) :
    (h.enclose f name).2.without x = ((h.without x).enclose f name).2 := by
  unfold enclose
  rw [without_addFrame, chain_without]
  rfl

/-- A snapshot of a frame without the name is the snapshot without the name. -/
theorem without_capture (h : Heap) (f : FrameId) (x : String) :
    (h.capture f).2.without x = ((h.without x).capture f).2 := by
  unfold capture
  rw [without_addFrame, frame_without]
  rfl

/-- One frame is changed, in the heap and in the heap without the name. -/
theorem map_modify_frame (frames : Array Frame) (f : FrameId) (k l : Frame → Frame)
    (hkl : ∀ fr, (k fr).without x = l (fr.without x)) :
    (frames.modify f k).map (·.without x) = (frames.map (·.without x)).modify f l := by
  refine Array.ext_getElem? fun i => ?_
  simp only [Array.getElem?_map, Array.getElem?_modify]
  by_cases hi : f = i
  · simp [hi, Function.comp_def, hkl]
  · simp [hi]

/-- Another name is declared the same without the name. -/
theorem without_declare (h : Heap) (f : FrameId) (value : Option Value) (hy : y ≠ x) :
    (h.declare f y value).without x = (h.without x).declare f y value := by
  let bind (fr : Frame) : Frame := { fr with slots := fr.slots.put y h.cells.size }
  have hframe : ∀ fr, (bind fr).without x = bind (fr.without x) := fun fr => by
    simp only [bind, Frame.without, fr.slots.without_put_of_ne _ hy]
  unfold declare without
  rw [map_modify_frame h.frames f bind bind hframe]

/-- Nothing but the cell is left of a declaration of the name itself. -/
theorem without_declare_self (h : Heap) (f : FrameId) (x : String) (value : Option Value) :
    (h.declare f x value).without x = { h.without x with cells := h.cells.push value } := by
  have hframe : ∀ fr : Frame,
      Frame.without { fr with slots := fr.slots.put x h.cells.size } x = id (fr.without x) :=
    fun fr => by simp only [Frame.without, fr.slots.without_put_self, id]
  unfold declare without
  rw [map_modify_frame h.frames f _ _ hframe]
  congr 1
  refine Array.ext_getElem? fun i => ?_
  simp [Array.getElem?_modify]

/-- Another name is assigned to the same without the name. -/
theorem without_assign (h : Heap) (f : FrameId) (value : Option Value) (hy : y ≠ x) :
    (h.assign f y value).without x = (h.without x).assign f y value := by
  have hslot := slot?_without h f hy
  cases hs : h.slot? f y with
  | none => rw [assign_of_no_slot hs, assign_of_no_slot (hslot.trans hs), without_declare h f _ hy]
  | some c =>
    rw [assign_of_slot hs, assign_of_slot (hslot.trans hs)]
    rfl

/-! ## Heaps that are the same without the name -/

/-- The heaps differ in nothing but what the name is bound to. -/
def SameBut (x : String) (h h' : Heap) : Prop :=
  h.without x = h'.without x

namespace SameBut

/-- A heap differs from itself without the name in nothing else. -/
theorem refl_without (h : Heap) (x : String) : SameBut x h (h.without x) :=
  (without_without h x).symm

theorem cells (hs : SameBut x h h') : h.cells = h'.cells :=
  show (h.without x).cells = (h'.without x).cells from congrArg Heap.cells hs

theorem size (hs : SameBut x h h') : h.frames.size = h'.frames.size := by
  rw [← frames_without h x, hs, frames_without]

/-- Heaps that differ in one name find the same for every other one. -/
theorem get? (hs : SameBut x h h') (f : FrameId) (hy : y ≠ x) : h.get? f y = h'.get? f y := by
  rw [← get?_without h f hy, hs, get?_without h' f hy]

/-- They stay so when both get an inner frame. -/
theorem enclose (hs : SameBut x h h') (f : FrameId) (name : String) :
    SameBut x (h.enclose f name).2 (h'.enclose f name).2 := by
  rw [SameBut, without_enclose, without_enclose, hs]

/-- They stay so when a frame is captured in both. -/
theorem capture (hs : SameBut x h h') (f : FrameId) :
    SameBut x (h.capture f).2 (h'.capture f).2 := by
  rw [SameBut, without_capture, without_capture, hs]

/-- They stay so when any name is declared in both, the one they differ in too. -/
theorem declare (hs : SameBut x h h') (f : FrameId) (y : String) (value : Option Value) :
    SameBut x (h.declare f y value) (h'.declare f y value) := by
  rw [SameBut]
  by_cases hy : y = x
  · subst hy
    rw [without_declare_self, without_declare_self, hs, hs.cells]
  · rw [without_declare h f value hy, without_declare h' f value hy, hs]

/-- They stay so when another name is assigned to in both. -/
theorem assign (hs : SameBut x h h') (f : FrameId) (hy : y ≠ x) (value : Option Value) :
    SameBut x (h.assign f y value) (h'.assign f y value) := by
  rw [SameBut, without_assign h f value hy, without_assign h' f value hy, hs]

/-- They stay so when names are declared in both one after the other. -/
theorem declareAll (hs : SameBut x h h') (f : FrameId) (bindings : List (String × Option Value)) :
    SameBut x (h.declareAll f bindings) (h'.declareAll f bindings) := by
  induction bindings generalizing h h' with
  | nil => exact hs
  | cons b rest ih => exact ih (hs.declare f b.1 b.2)

/-- The frame of a call has the same number in both, and the heaps stay the same. -/
theorem enter (hs : SameBut x h h') (f : FrameId) (name : String)
    (bindings : List (String × Option Value)) :
    (h.enter f name bindings).1 = (h'.enter f name bindings).1 ∧
      SameBut x (h.enter f name bindings).2 (h'.enter f name bindings).2 := by
  have hinner : (h.enclose f name).1 = (h'.enclose f name).1 := hs.size
  refine ⟨hinner, ?_⟩
  unfold Heap.enter
  rw [hinner]
  exact (hs.enclose f name).declareAll _ bindings

end SameBut

/-! ## Cells under one name -/

/-- A cell that is bound exists, and it is bound under one name. -/
structure Named (h : Heap) : Prop where
  cells_lt : ∀ {f y c}, h.slot? f y = some c → c < h.cells.size
  unique : ∀ {f g y z c}, h.slot? f y = some c → h.slot? g z = some c → y = z

namespace Named

theorem without (hn : h.Named) (x : String) : (h.without x).Named where
  cells_lt hs := hn.cells_lt (slot?_of_without hs)
  unique hs hs' := hn.unique (slot?_of_without hs) (slot?_of_without hs')

/-- Every change keeps a cell under its name: a snapshot shares it under the same. -/
theorem change (hn : h.Named) (c : Change) : (h.change c).Named := by
  let s : History := ⟨h, []⟩
  have hstep : (s.step c).heap = h.change c := rfl
  have hle : h.cells.size ≤ (h.change c).cells.size := History.cells_step_le s c
  constructor
  · intro f y cell hs
    rcases History.slot?_step (s := s) hs with hs | ⟨-, -, f', hs⟩ | ⟨-, -, hlt⟩
    · exact Nat.lt_of_lt_of_le (hn.cells_lt hs) hle
    · exact Nat.lt_of_lt_of_le (hn.cells_lt hs) hle
    · exact hlt
  · -- of the two slots both are old, or both are the one that the change made
    have hold : ∀ {f y cell}, (h.change c).slot? f y = some cell →
        (∃ f', h.slot? f' y = some cell) ∨ c.target? = some (f, y) ∧ cell = h.cells.size := by
      intro f y cell hs
      rcases History.slot?_step (s := s) hs with hs | ⟨-, -, hs⟩ | ⟨ht, he, -⟩
      · exact .inl ⟨f, hs⟩
      · exact .inl hs
      · exact .inr ⟨ht, he⟩
    intro f g y z cell hs hs'
    rcases hold hs with ⟨f', hs⟩ | ⟨ht, rfl⟩
    · rcases hold hs' with ⟨g', hs'⟩ | ⟨-, rfl⟩
      · exact hn.unique hs hs'
      · exact absurd (hn.cells_lt hs) (Nat.lt_irrefl _)
    · rcases hold hs' with ⟨g', hs'⟩ | ⟨ht', -⟩
      · exact absurd (hn.cells_lt hs') (Nat.lt_irrefl _)
      · exact congrArg Prod.snd (Option.some.inj (ht.symm.trans ht'))

theorem declareAll (hn : h.Named) (f : FrameId) (bindings : List (String × Option Value)) :
    (h.declareAll f bindings).Named := by
  induction bindings generalizing h with
  | nil => exact hn
  | cons b rest ih => exact ih (hn.change (.declare f b.1 b.2))

/-- The frame of a call has new cells only, so every cell is still bound under one name. -/
theorem enter (hn : h.Named) (f : FrameId) (name : String)
    (bindings : List (String × Option Value)) : (h.enter f name bindings).2.Named :=
  (hn.change (.enclose f name)).declareAll _ bindings

/-- In the heaps of all histories a cell is bound under one name. -/
theorem of_history (cs : List Change) : (History.initial.run cs).heap.Named := by
  have hrun : ∀ s : History, s.heap.Named → (s.run cs).heap.Named := by
    induction cs with
    | nil => exact fun _ hs => hs
    | cons c cs ih => exact fun s hs => ih (s.step c) (hs.change c)
  refine hrun _ ⟨?_, ?_⟩
  · intro f y c hs
    rw [History.slot?_initial] at hs
    cases hs
  · intro f g y z c hs
    rw [History.slot?_initial] at hs
    cases hs

end Named

/-! ## Names that are left alone -/

/-- The frames of the first heap are still there in the second and bind the name to the cells
that they bound it to, and in these is what was in them. -/
structure Untouched (x : String) (h g : Heap) : Prop where
  frames_le : h.frames.size ≤ g.frames.size
  slot : ∀ f < h.frames.size, g.slot? f x = h.slot? f x
  content : ∀ f < h.frames.size, ∀ c ∈ h.slot? f x, g.content c = h.content c

namespace Untouched

variable {k : Heap} {v : Option Value}

theorem refl (x : String) (h : Heap) : Untouched x h h :=
  ⟨Nat.le_refl _, fun _ _ => rfl, fun _ _ _ _ => rfl⟩

/-- What is untouched by two changes in turn is untouched by both. -/
theorem trans (hg : Untouched x h g) (hk : Untouched x g k) : Untouched x h k where
  frames_le := Nat.le_trans hg.frames_le hk.frames_le
  slot f hf := (hk.slot f (Nat.lt_of_lt_of_le hf hg.frames_le)).trans (hg.slot f hf)
  content f hf c hc := by
    have hc' : c ∈ g.slot? f x := by
      rw [hg.slot f hf]
      exact hc
    exact (hk.content f (Nat.lt_of_lt_of_le hf hg.frames_le) c hc').trans (hg.content f hf c hc)

/-- A new frame. -/
theorem addFrame (hu : Untouched x h g) (fr : Frame) : Untouched x h (g.addFrame fr).2 where
  frames_le := by
    rw [frames_addFrame]
    exact Nat.le_succ_of_le hu.frames_le
  slot f hf := by
    have hlt := Nat.lt_of_lt_of_le hf hu.frames_le
    rw [slot?_eq ((frame_addFrame g fr f).trans (if_neg (Nat.ne_of_lt hlt))), hu.slot f hf]
  content := hu.content

/-- A declaration of another name, or in a frame that was not there at the start. -/
theorem declare (hu : Untouched x h g) (hn : g.Named) (hy : f < h.frames.size → y ≠ x)
    (v : Option Value) : Untouched x h (g.declare f y v) where
  frames_le := by
    rw [frames_declare]
    exact hu.frames_le
  slot e he := by
    rw [slot?_declare, if_neg ?_, hu.slot e he]
    rintro ⟨rfl, -, rfl⟩
    exact hy he rfl
  content e he c hc := by
    have hlt : c < g.cells.size := hn.cells_lt ((hu.slot e he).trans hc)
    rw [content_declare, if_neg (Nat.ne_of_lt hlt), hu.content e he c hc]

/-- An assignment to another name. -/
theorem assign (hu : Untouched x h g) (hn : g.Named) (hy : y ≠ x) (v : Option Value) :
    Untouched x h (g.assign f y v) := by
  cases hs : g.slot? f y with
  | none =>
    rw [assign_of_no_slot hs]
    exact hu.declare hn (fun _ => hy) v
  | some cell =>
    rw [assign_of_slot hs]
    refine ⟨hu.frames_le, hu.slot, fun e he c hc => ?_⟩
    -- the cell is bound under the other name, and so not under this one
    have hne : c ≠ cell := fun hcell =>
      hy (hn.unique hs (hcell ▸ (hu.slot e he).trans hc))
    rw [content_write, if_neg fun hw => hne hw.1, hu.content e he c hc]

/-- A call binds its parameters in a frame of its own, whatever their names are. -/
theorem enter (hn : h.Named) (f : FrameId) (name : String)
    (bindings : List (String × Option Value)) : Untouched x h (h.enter f name bindings).2 := by
  have hall : ∀ g : Heap, g.Named → Untouched x h g →
      Untouched x h (g.declareAll h.frames.size bindings) := by
    induction bindings with
    | nil => exact fun _ _ hu => hu
    | cons b rest ih =>
      intro g hg hu
      have hdeclare : Untouched x h (g.declare h.frames.size b.1 b.2) :=
        hu.declare hg (fun hlt => absurd hlt (Nat.lt_irrefl _)) b.2
      exact ih _ (hg.change (.declare _ b.1 b.2)) hdeclare
  exact hall _ (hn.change (.enclose f name)) ((refl x h).addFrame _)

end Untouched

end Heap

/-! ## Matchings without the name -/

open Heap in
/-- Heaps that are joined are joined without the name. -/
theorem Matching.Joins.without {m : Matching} {B : BodyRel} {h h' : Heap} (hm : m.Joins B h h')
    (x : String) : m.Joins B (h.without x) (h'.without x) where
  frame_iff := hm.frame_iff
  cell_iff := hm.cell_iff
  outers hf := by
    rw [outers_without, outers_without]
    exact hm.outers hf
  slots hf := by
    rw [slots_without, slots_without]
    exact (hm.slots hf).without x
  content := hm.content

end Ember

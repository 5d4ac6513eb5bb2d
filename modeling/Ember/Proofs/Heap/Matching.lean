import Mathlib.Data.List.Forall2
import Ember.Eval
import Ember.Proofs.Heap.History

/-!
# Heaps that match

A matching pairs frames and cells of one heap with those of another, each with at most one.
It joins the heaps when paired frames have paired frames around them and bind the same names,
in the same order, to paired cells, and paired cells hold the same (`Matching.Joins`). So
whatever is reached from one of two paired frames is paired with what is reached the same way
from the other (`Matching.Joins.reachesFrame`).

The heaps may hold other frames and cells, and different ones. A change that is made on both
sides keeps them joined, by a matching that may have one pair more (`Matching.Grows`).
-/

namespace Ember

/-! ## Maps with related values -/

namespace OrderedMap

variable {κ α β : Type} {S : α → β → Prop}

/-- The maps have the same keys in the same order, and related values at them. -/
def Rel (S : α → β → Prop) (m : OrderedMap κ α) (m' : OrderedMap κ β) : Prop :=
  List.Forall₂ (fun e e' => e.1 = e'.1 ∧ S e.2 e'.2) m.entries m'.entries

variable {m : OrderedMap κ α} {m' : OrderedMap κ β} {key : κ} {v : α} {v' : β}

theorem Rel.mono {T : α → β → Prop} (h : Rel S m m') (hST : ∀ a b, S a b → T a b) :
    Rel T m m' :=
  List.Forall₂.imp (fun _ _ he => ⟨he.1, hST _ _ he.2⟩) h

variable [DecidableEq κ]

/-- In related maps a key is found on both sides or on neither. -/
theorem Rel.get? (h : Rel S m m') (key : κ) : Option.Rel S (m.get? key) (m'.get? key) := by
  obtain ⟨entries⟩ := m
  obtain ⟨entries'⟩ := m'
  replace h : List.Forall₂ _ entries entries' := h
  unfold OrderedMap.get?
  induction h with
  | nil => exact .none
  | @cons e e' rest rest' he _ ih =>
    obtain ⟨hkey, hvalue⟩ := he
    by_cases hk : e.1 = key
    · simpa [hk, ← hkey] using Option.Rel.some hvalue
    · simpa [hk, ← hkey] using ih

/-- Related values may be put at a key of related maps. -/
theorem Rel.put (h : Rel S m m') (hv : S v v') : Rel S (m.put key v) (m'.put key v') := by
  obtain ⟨entries⟩ := m
  obtain ⟨entries'⟩ := m'
  replace h : List.Forall₂ _ entries entries' := h
  change List.Forall₂ _ (putEntry key v entries) (putEntry key v' entries')
  induction h with
  | nil => exact .cons ⟨rfl, hv⟩ .nil
  | @cons e e' rest rest' he hrest ih =>
    obtain ⟨k, w⟩ := e
    obtain ⟨k', w'⟩ := e'
    obtain ⟨rfl, hw⟩ := he
    rw [putEntry, putEntry]
    split
    · exact .cons ⟨rfl, hv⟩ hrest
    · exact .cons ⟨rfl, hw⟩ ih

end OrderedMap

/-! ## Reach -/

namespace Heap

mutual

/-- The frames that are reached from a frame: itself, those around them, and those that
functions in their cells were made with. -/
inductive ReachesFrame (h : Heap) (f : FrameId) : FrameId → Prop
  | start : ReachesFrame h f f
  | outer {g o : FrameId} : ReachesFrame h f g → o ∈ (h.frame g).outers → ReachesFrame h f o
  | function {c : CellId} {closure : Closure} :
      ReachesCell h f c → h.content c = some (.function closure) → ReachesFrame h f closure.frame

/-- The cells that are bound in the frames that are reached. -/
inductive ReachesCell (h : Heap) (f : FrameId) : CellId → Prop
  | slot {g : FrameId} {c : CellId} : ReachesFrame h f g → c ∈ h.cellsOf g → ReachesCell h f c

end

end Heap

/-! ## Matchings -/

/-- Frames and cells of two heaps, paired. -/
structure Matching where
  frames : FrameId → FrameId → Prop
  cells : CellId → CellId → Prop

/-- How the bodies of paired functions are related. -/
abbrev BodyRel := Node → Node → Prop

namespace Matching

open Heap

/-- The values are the same up to the matching: functions have the same parameters, related
bodies and paired frames. -/
inductive Values (m : Matching) (B : BodyRel) : Value → Value → Prop
  | integer (n : Int) : Values m B (.integer n) (.integer n)
  | boolean (b : Bool) : Values m B (.boolean b) (.boolean b)
  | function (parameters : List String) {body body' : Node} {f f' : FrameId} :
      B body body' → m.frames f f' →
      Values m B (.function ⟨parameters, body, f⟩) (.function ⟨parameters, body', f'⟩)

/-- Two values that are the same up to the matching, or no value on either side. -/
abbrev Results (m : Matching) (B : BodyRel) : Option Value → Option Value → Prop :=
  Option.Rel (m.Values B)

/-- The matching pairs each frame and each cell with at most one, and what is paired looks
the same. -/
structure Joins (m : Matching) (B : BodyRel) (h h' : Heap) : Prop where
  frame_iff : ∀ {f f' g g'}, m.frames f f' → m.frames g g' → (f = g ↔ f' = g')
  cell_iff : ∀ {c c' d d'}, m.cells c c' → m.cells d d' → (c = d ↔ c' = d')
  outers : ∀ {f f'}, m.frames f f' →
    List.Forall₂ m.frames (h.frame f).outers (h'.frame f').outers
  slots : ∀ {f f'}, m.frames f f' → (h.frame f).slots.Rel m.cells (h'.frame f').slots
  content : ∀ {c c'}, m.cells c c' → m.Results B (h.content c) (h'.content c')

/-- What is paired is there, in both heaps. -/
structure Present (m : Matching) (h h' : Heap) : Prop where
  frames : ∀ {f f'}, m.frames f f' → f < h.frames.size ∧ f' < h'.frames.size
  cells : ∀ {c c'}, m.cells c c' → c < h.cells.size ∧ c' < h'.cells.size

/-- Two numbers below two bounds, or equally far above them. -/
def Level (bound bound' n n' : Nat) : Prop :=
  n < bound ∧ n' < bound' ∨ ∃ i, n = bound + i ∧ n' = bound' + i

/-- What is paired is there, in both heaps, or it is still to be made, in the same order. -/
structure Fits (m : Matching) (h h' : Heap) : Prop where
  frames : ∀ {f f'}, m.frames f f' → Level h.frames.size h'.frames.size f f'
  cells : ∀ {c c'}, m.cells c c' → Level h.cells.size h'.cells.size c c'

/-- `m'` pairs all that `m` pairs. -/
structure Extends (m m' : Matching) : Prop where
  frames : ∀ {f f'}, m.frames f f' → m'.frames f f'
  cells : ∀ {c c'}, m.cells c c' → m'.cells c c'

/-- From heaps that `m` joins two evaluations have come to heaps that `m'` joins. -/
structure Grows (m : Matching) (B : BodyRel) (h h' : Heap) (m' : Matching) (g g' : Heap) :
    Prop where
  keeps : m.Extends m'
  joins : m'.Joins B g g'
  fits : m'.Fits g g'
  present : m.Present h h' → m'.Present g g'

variable {m m' m'' : Matching} {B : BodyRel} {h h' g g' k k' : Heap} {f f' : FrameId}
  {c c' : CellId} {v v' w w' : Option Value} {x : String}

theorem Extends.refl (m : Matching) : m.Extends m := ⟨id, id⟩

theorem Extends.trans (h₁ : m.Extends m') (h₂ : m'.Extends m'') : m.Extends m'' :=
  ⟨fun h => h₂.frames (h₁.frames h), fun h => h₂.cells (h₁.cells h)⟩

theorem Grows.refl (hm : m.Joins B h h') (hf : m.Fits h h') : m.Grows B h h' m h h' :=
  ⟨.refl m, hm, hf, id⟩

/-- Evaluations in turn grow a matching in turn. -/
theorem Grows.trans (h₁ : m.Grows B h h' m' g g') (h₂ : m'.Grows B g g' m'' k k') :
    m.Grows B h h' m'' k k' :=
  ⟨h₁.keeps.trans h₂.keeps, h₂.joins, h₂.fits, fun hp => h₂.present (h₁.present hp)⟩

/-- A matching of what is there fits. -/
theorem Present.fits (hp : m.Present h h') : m.Fits h h' :=
  ⟨fun hf => .inl (hp.frames hf), fun hc => .inl (hp.cells hc)⟩

/-! ## Values -/

/-- Values stay the same when more is paired. -/
theorem Values.mono {a a' : Value} (hv : m.Values B a a') (he : m.Extends m') :
    m'.Values B a a' := by
  cases hv with
  | integer n => exact .integer n
  | boolean b => exact .boolean b
  | function ps hb hf => exact .function ps hb (he.frames hf)

theorem Results.mono (hv : m.Results B v v') (he : m.Extends m') : m'.Results B v v' := by
  cases hv with
  | none => exact .none
  | some hv => exact .some (hv.mono he)

/-- Matched results have a type of the same name. -/
theorem Results.typeName (hv : m.Results B v v') : typeNameOf v = typeNameOf v' := by
  cases hv with
  | none => rfl
  | some hv => cases hv <;> rfl

/-- Matched results are both true or both false. -/
theorem Results.holds (hv : m.Results B v v') : holds v = holds v' := by
  cases hv with
  | none => rfl
  | some hv => cases hv <;> rfl

/-- Functions are told apart in the same way on both sides, where bodies of the same form are
paired. -/
theorem Joins.same (hm : m.Joins B h h') (hB : ∀ n n', B n n' → n.erase = n'.erase)
    {a a' b b' : Value} (ha : m.Values B a a') (hb : m.Values B b b') : a.same b = a'.same b' := by
  cases ha with
  | integer n => cases hb <;> rfl
  | boolean b => cases hb <;> rfl
  | function ps hbody hf =>
    cases hb with
    | integer n => rfl
    | boolean b => rfl
    | @function qs n n' g g' hbody' hg =>
      have hbodies := hB _ _ hbody
      have hbodies' := hB _ _ hbody'
      rw [Bool.eq_iff_iff]
      simp only [Value.same, Bool.and_eq_true, Node.sameAs_iff, decide_eq_true_eq, hbodies,
        hbodies', hm.frame_iff hf hg]

/-- An operator gives the same on both sides, or fails in the same way. -/
theorem Joins.binaryOperation (hm : m.Joins B h h') (hB : ∀ n n', B n n' → n.erase = n'.erase)
    (operator : String) (hv : m.Results B v v') (hw : m.Results B w w') :
    binaryOperation operator v w = binaryOperation operator v' w' := by
  have hmismatch : operandMismatch v operator w = operandMismatch v' operator w' := by
    rw [operandMismatch, operandMismatch, hv.typeName, hw.typeName]
  cases hv with
  | none => simp only [Ember.binaryOperation, hmismatch]
  | some ha =>
    cases hw with
    | none => simp only [Ember.binaryOperation, hmismatch]
    | some hb =>
      have hsame := hm.same hB ha hb
      cases ha <;> cases hb <;> simp only [Ember.binaryOperation, hsame, hmismatch]

/-- An operator in front does the same to matched operands. -/
theorem Results.unaryOperation (operator : String) (hv : m.Results B v v') :
    unaryOperation operator v = unaryOperation operator v' := by
  unfold Ember.unaryOperation
  rw [hv.holds, hv.typeName]
  cases hv with
  | none => rfl
  | some hv => cases hv <;> rfl

/-! ## Names -/

/-- In related lists the first finds are related. -/
theorem findSome?_rel {α β γ δ : Type} {R : α → β → Prop} {S : γ → δ → Prop}
    {p : α → Option γ} {q : β → Option δ} {l : List α} {l' : List β} (hl : List.Forall₂ R l l')
    (hpq : ∀ a b, R a b → Option.Rel S (p a) (q b)) :
    Option.Rel S (l.findSome? p) (l'.findSome? q) := by
  induction hl with
  | nil => exact .none
  | @cons a b l l' hab _ ih =>
    have hhead := hpq a b hab
    rw [List.findSome?_cons, List.findSome?_cons]
    cases ha : p a with
    | none =>
      cases hb : q b with
      | none => exact ih
      | some d =>
        rw [ha, hb] at hhead
        cases hhead
    | some c =>
      cases hb : q b with
      | none =>
        rw [ha, hb] at hhead
        cases hhead
      | some d => rwa [ha, hb] at hhead

/-- The chains of paired frames are paired frame by frame. -/
theorem Joins.chain (hm : m.Joins B h h') (hf : m.frames f f') :
    List.Forall₂ m.frames (h.chain f) (h'.chain f') :=
  .cons hf (hm.outers hf)

/-- Paired frames bind the same names, to paired cells. -/
theorem Joins.slot? (hm : m.Joins B h h') (hf : m.frames f f') (x : String) :
    Option.Rel m.cells (h.slot? f x) (h'.slot? f' x) :=
  (hm.slots hf).get? x

/-- A name stands for the same on both sides. -/
theorem Joins.get? (hm : m.Joins B h h') (hf : m.frames f f') (x : String) :
    Option.Rel (m.Results B) (h.get? f x) (h'.get? f' x) := by
  have hlookup : Option.Rel m.cells (h.lookup f x) (h'.lookup f' x) :=
    findSome?_rel (hm.chain hf) fun _ _ hg => hm.slot? hg x
  unfold Heap.get?
  cases hc : h.lookup f x with
  | none =>
    rw [hc] at hlookup
    generalize h'.lookup f' x = r at hlookup
    cases hlookup
    exact .none
  | some c =>
    rw [hc] at hlookup
    generalize h'.lookup f' x = r at hlookup
    cases hlookup with
    | some hcell => exact .some (hm.content hcell)

/-! ## New frames and cells -/

/-- The matching with one more pair of frames. -/
def withFrame (m : Matching) (n n' : FrameId) : Matching :=
  { m with frames := fun f f' => m.frames f f' ∨ f = n ∧ f' = n' }

/-- The matching with one more pair of cells. -/
def withCell (m : Matching) (n n' : CellId) : Matching :=
  { m with cells := fun c c' => m.cells c c' ∨ c = n ∧ c' = n' }

theorem extends_withFrame (m : Matching) (n n' : FrameId) : m.Extends (m.withFrame n n') :=
  ⟨.inl, id⟩

theorem extends_withCell (m : Matching) (n n' : CellId) : m.Extends (m.withCell n n') :=
  ⟨id, .inl⟩

/-- Paired numbers meet their bounds together. -/
theorem Level.eq_iff {b b' n n' : Nat} (hl : Level b b' n n') : n = b ↔ n' = b' := by
  rcases hl with ⟨hn, hn'⟩ | ⟨i, rfl, rfl⟩
  · omega
  · omega

theorem Level.lt_iff {b b' n n' : Nat} (hl : Level b b' n n') : n < b ↔ n' < b' := by
  rcases hl with ⟨hn, hn'⟩ | ⟨i, rfl, rfl⟩
  · omega
  · omega

/-- What was level with two bounds is so with the next ones. -/
theorem Level.succ {b b' n n' : Nat} (hl : Level b b' n n') : Level (b + 1) (b' + 1) n n' := by
  rcases hl with ⟨hn, hn'⟩ | ⟨i, rfl, rfl⟩
  · exact .inl ⟨by omega, by omega⟩
  · cases i with
    | zero => exact .inl ⟨by omega, by omega⟩
    | succ i => exact .inr ⟨i, by omega, by omega⟩

/-- The bounds themselves may be paired. -/
theorem eq_iff_of_new {R : Nat → Nat → Prop} {b b' : Nat}
    (hR : ∀ {i i' j j'}, R i i' → R j j' → (i = j ↔ i' = j'))
    (hl : ∀ {i i'}, R i i' → Level b b' i i') {i i' j j' : Nat} (hi : R i i' ∨ i = b ∧ i' = b')
    (hj : R j j' ∨ j = b ∧ j' = b') : i = j ↔ i' = j' := by
  rcases hi with hi | ⟨rfl, rfl⟩
  · rcases hj with hj | ⟨rfl, rfl⟩
    · exact hR hi hj
    · exact (hl hi).eq_iff
  · rcases hj with hj | ⟨rfl, rfl⟩
    · rw [eq_comm, (hl hj).eq_iff, eq_comm]
    · exact iff_of_true rfl rfl

/-- **Two new frames that look the same.** -/
theorem Joins.addFrame (hm : m.Joins B h h') (hx : m.Fits h h') {fr fr' : Frame}
    (ho : List.Forall₂ m.frames fr.outers fr'.outers) (hs : fr.slots.Rel m.cells fr'.slots) :
    m.Grows B h h' (m.withFrame h.frames.size h'.frames.size) (h.addFrame fr).2
      (h'.addFrame fr').2 where
  keeps := extends_withFrame ..
  joins := by
    have hnew : ∀ {f f'}, (m.withFrame h.frames.size h'.frames.size).frames f f' →
        (f = h.frames.size ↔ f' = h'.frames.size) := by
      rintro f f' (hf | ⟨rfl, rfl⟩)
      · exact (hx.frames hf).eq_iff
      · exact iff_of_true rfl rfl
    refine ⟨eq_iff_of_new hm.frame_iff hx.frames, hm.cell_iff, ?_, ?_, fun hc =>
      (hm.content hc).mono (extends_withFrame ..)⟩
    · intro f f' hf
      rw [frame_addFrame, frame_addFrame]
      refine List.Forall₂.imp (fun _ _ => .inl) ?_
      by_cases he : f = h.frames.size
      · rwa [if_pos he, if_pos ((hnew hf).1 he)]
      · rw [if_neg he, if_neg fun he' => he ((hnew hf).2 he')]
        exact hm.outers (hf.resolve_right fun hp => he hp.1)
    · intro f f' hf
      rw [frame_addFrame, frame_addFrame]
      by_cases he : f = h.frames.size
      · rwa [if_pos he, if_pos ((hnew hf).1 he)]
      · rw [if_neg he, if_neg fun he' => he ((hnew hf).2 he')]
        exact hm.slots (hf.resolve_right fun hp => he hp.1)
  fits := by
    refine ⟨?_, hx.cells⟩
    rw [frames_addFrame, frames_addFrame]
    rintro f f' (hf | ⟨rfl, rfl⟩)
    · exact (hx.frames hf).succ
    · exact .inl ⟨Nat.lt_succ_self _, Nat.lt_succ_self _⟩
  present hp := by
    refine ⟨?_, hp.cells⟩
    rw [frames_addFrame, frames_addFrame]
    rintro f f' (hf | ⟨rfl, rfl⟩)
    · exact ⟨Nat.lt_succ_of_lt (hp.frames hf).1, Nat.lt_succ_of_lt (hp.frames hf).2⟩
    · exact ⟨Nat.lt_succ_self _, Nat.lt_succ_self _⟩

/-- The new frames are paired. -/
theorem withFrame_new (m : Matching) (n n' : FrameId) : (m.withFrame n n').frames n n' :=
  .inr ⟨rfl, rfl⟩

/-- New inner frames of paired frames may be paired. -/
theorem Joins.enclose (hm : m.Joins B h h') (hx : m.Fits h h') (hf : m.frames f f')
    (name name' : String) :
    m.Grows B h h' (m.withFrame h.frames.size h'.frames.size) (h.enclose f name).2
      (h'.enclose f' name').2 :=
  hm.addFrame hx (hm.chain hf) .nil

/-- Snapshots of paired frames may be paired. -/
theorem Joins.capture (hm : m.Joins B h h') (hx : m.Fits h h') (hf : m.frames f f') :
    m.Grows B h h' (m.withFrame h.frames.size h'.frames.size) (h.capture f).2
      (h'.capture f').2 :=
  hm.addFrame hx (hm.chain hf) (hm.slots hf)

/-! ## Declarations and assignments -/

/-- **A name that is declared on both sides.** -/
theorem Joins.declare (hm : m.Joins B h h') (hx : m.Fits h h') (hf : m.frames f f') (x : String)
    (hv : m.Results B v v') :
    m.Grows B h h' (m.withCell h.cells.size h'.cells.size) (h.declare f x v)
      (h'.declare f' x v') where
  keeps := extends_withCell ..
  joins := by
    have hnew : ∀ {c c'}, (m.withCell h.cells.size h'.cells.size).cells c c' →
        (c = h.cells.size ↔ c' = h'.cells.size) := by
      rintro c c' (hc | ⟨rfl, rfl⟩)
      · exact (hx.cells hc).eq_iff
      · exact iff_of_true rfl rfl
    have hhere : ∀ {g g'}, m.frames g g' →
        (g = f ∧ f < h.frames.size ↔ g' = f' ∧ f' < h'.frames.size) := fun hg =>
      and_congr (hm.frame_iff hg hf) (hx.frames hf).lt_iff
    refine ⟨hm.frame_iff, eq_iff_of_new hm.cell_iff hx.cells, ?_, ?_, ?_⟩
    · intro g g' hg
      rw [outers_declare, outers_declare]
      exact hm.outers hg
    · intro g g' hg
      have hslots := (hm.slots hg).mono fun _ _ =>
        (extends_withCell m h.cells.size h'.cells.size).cells
      rw [slots_declare, slots_declare]
      by_cases he : g = f ∧ f < h.frames.size
      · rw [if_pos he, if_pos ((hhere hg).1 he)]
        exact hslots.put (.inr ⟨rfl, rfl⟩)
      · rwa [if_neg he, if_neg fun he' => he ((hhere hg).2 he')]
    · intro c c' hc
      rw [content_declare, content_declare]
      by_cases he : c = h.cells.size
      · rw [if_pos he, if_pos ((hnew hc).1 he)]
        exact hv.mono (extends_withCell ..)
      · rw [if_neg he, if_neg fun he' => he ((hnew hc).2 he')]
        exact (hm.content (hc.resolve_right fun hp => he hp.1)).mono (extends_withCell ..)
  fits := by
    refine ⟨?_, ?_⟩
    · rw [frames_declare, frames_declare]
      exact hx.frames
    · rw [cells_declare, cells_declare]
      rintro c c' (hc | ⟨rfl, rfl⟩)
      · exact (hx.cells hc).succ
      · exact .inl ⟨Nat.lt_succ_self _, Nat.lt_succ_self _⟩
  present hp := by
    refine ⟨?_, ?_⟩
    · rw [frames_declare, frames_declare]
      exact hp.frames
    · rw [cells_declare, cells_declare]
      rintro c c' (hc | ⟨rfl, rfl⟩)
      · exact ⟨Nat.lt_succ_of_lt (hp.cells hc).1, Nat.lt_succ_of_lt (hp.cells hc).2⟩
      · exact ⟨Nat.lt_succ_self _, Nat.lt_succ_self _⟩

/-- **A cell that is written on both sides.** -/
theorem Joins.write (hm : m.Joins B h h') (hx : m.Fits h h') (hc : m.cells c c')
    (hv : m.Results B v v') :
    m.Grows B h h' m { h with cells := h.cells.setIfInBounds c v }
      { h' with cells := h'.cells.setIfInBounds c' v' } where
  keeps := .refl m
  joins := by
    refine ⟨hm.frame_iff, hm.cell_iff, hm.outers, hm.slots, ?_⟩
    intro d d' hd
    have hhere : d = c ∧ c < h.cells.size ↔ d' = c' ∧ c' < h'.cells.size :=
      and_congr (hm.cell_iff hd hc) (hx.cells hc).lt_iff
    rw [content_write, content_write]
    by_cases he : d = c ∧ c < h.cells.size
    · rwa [if_pos he, if_pos (hhere.1 he)]
    · rw [if_neg he, if_neg fun he' => he (hhere.2 he')]
      exact hm.content hd
  fits := by
    refine ⟨hx.frames, ?_⟩
    simp only [Array.size_setIfInBounds]
    exact hx.cells
  present hp := by
    refine ⟨hp.frames, ?_⟩
    simp only [Array.size_setIfInBounds]
    exact hp.cells

/-- Matched values may be assigned in paired frames, whether to a cell or to a new one. -/
theorem Joins.assign (hm : m.Joins B h h') (hx : m.Fits h h') (hf : m.frames f f') (x : String)
    (hv : m.Results B v v') :
    ∃ m', m.Grows B h h' m' (h.assign f x v) (h'.assign f' x v') := by
  have hslot := hm.slot? hf x
  cases hs : h.slot? f x with
  | none =>
    cases hs' : h'.slot? f' x with
    | none =>
      rw [assign_of_no_slot hs, assign_of_no_slot hs']
      exact ⟨_, hm.declare hx hf x hv⟩
    | some c' =>
      rw [hs, hs'] at hslot
      cases hslot
  | some c =>
    cases hs' : h'.slot? f' x with
    | none =>
      rw [hs, hs'] at hslot
      cases hslot
    | some c' =>
      rw [hs, hs'] at hslot
      cases hslot with
      | some hc =>
        rw [assign_of_slot hs, assign_of_slot hs']
        exact ⟨m, hm.write hx hc hv⟩

/-- Names that are declared on both sides, one after the other. -/
theorem Joins.declareAll (hm : m.Joins B h h') (hx : m.Fits h h') (hf : m.frames f f')
    {bs bs' : List (String × Option Value)}
    (hbs : List.Forall₂ (fun b b' => b.1 = b'.1 ∧ m.Results B b.2 b'.2) bs bs') :
    ∃ m', m.Grows B h h' m' (h.declareAll f bs) (h'.declareAll f' bs') := by
  induction bs generalizing bs' m h h' with
  | nil =>
    cases hbs
    exact ⟨m, .refl hm hx⟩
  | cons b bs ih =>
    obtain ⟨x, v⟩ := b
    cases hbs with
    | @cons _ b' _ bs' hb hbs =>
    obtain ⟨x', v'⟩ := b'
    obtain ⟨rfl, hv⟩ := hb
    have hhead := hm.declare hx hf x hv
    have hrest := hbs.imp fun _ _ hb => And.imp_right (Results.mono · hhead.keeps) hb
    obtain ⟨m', hm'⟩ := ih hhead.joins hhead.fits (hhead.keeps.frames hf) hrest
    exact ⟨m', hhead.trans hm'⟩

/-! ## What is reached from a frame -/

theorem forall₂_mem {α β : Type} {R : α → β → Prop} {l : List α} {l' : List β}
    (hl : List.Forall₂ R l l') {a : α} (ha : a ∈ l) : ∃ b ∈ l', R a b := by
  induction hl with
  | nil => cases ha
  | @cons a₁ b₁ l l' hab _ ih =>
    rcases List.mem_cons.1 ha with rfl | ha
    · exact ⟨b₁, List.mem_cons_self .., hab⟩
    · obtain ⟨b, hb, hr⟩ := ih ha
      exact ⟨b, List.mem_cons_of_mem _ hb, hr⟩

/-- The cells of paired frames are paired in order. -/
theorem Joins.cellsOf (hm : m.Joins B h h') (hf : m.frames f f') :
    List.Forall₂ m.cells (h.cellsOf f) (h'.cellsOf f') := by
  have hs : List.Forall₂ _ _ _ := hm.slots hf
  exact List.forall₂_map_left_iff.2 (List.forall₂_map_right_iff.2 (hs.imp fun _ _ he => he.2))

mutual

/-- **What is reached on one side is paired with what is reached on the other.** -/
theorem Joins.reachesFrame (hm : m.Joins B h h') (hf : m.frames f f') {g : FrameId} :
    h.ReachesFrame f g → ∃ g', m.frames g g' ∧ h'.ReachesFrame f' g'
  | .start => ⟨f', hf, .start⟩
  | .outer hg ho => by
    obtain ⟨g', hgg, hg'⟩ := hm.reachesFrame hf hg
    obtain ⟨o', ho', hoo⟩ := forall₂_mem (hm.outers hgg) ho
    exact ⟨o', hoo, .outer hg' ho'⟩
  | .function hc hcontent => by
    obtain ⟨c', hcc, hc'⟩ := hm.reachesCell hf hc
    have hvalues := hm.content hcc
    rw [hcontent] at hvalues
    generalize hcontent' : h'.content c' = v' at hvalues
    cases hvalues with
    | some hv =>
      cases hv with
      | function ps _ hgg => exact ⟨_, hgg, .function hc' hcontent'⟩

/-- What one of two paired frames reaches is paired with what the other one reaches. -/
theorem Joins.reachesCell (hm : m.Joins B h h') (hf : m.frames f f') {c : CellId} :
    h.ReachesCell f c → ∃ c', m.cells c c' ∧ h'.ReachesCell f' c'
  | .slot hg hc => by
    obtain ⟨g', hgg, hg'⟩ := hm.reachesFrame hf hg
    obtain ⟨c', hc', hcc⟩ := forall₂_mem (hm.cellsOf hgg) hc
    exact ⟨c', hcc, .slot hg' hc'⟩

end

/-- The matching with its sides exchanged. -/
def swap (m : Matching) : Matching :=
  { frames := flip m.frames, cells := flip m.cells }

/-- Values are matched in both directions. -/
theorem Values.swap {a a' : Value} (hv : m.Values B a a') : m.swap.Values (flip B) a' a := by
  cases hv with
  | integer n => exact .integer n
  | boolean b => exact .boolean b
  | function ps hb hf => exact .function ps hb hf

/-- Heaps are joined in both directions. -/
theorem Joins.swap (hm : m.Joins B h h') : m.swap.Joins (flip B) h' h where
  frame_iff hf hg := (hm.frame_iff hf hg).symm
  cell_iff hc hd := (hm.cell_iff hc hd).symm
  outers hf := (hm.outers hf).flip
  slots hf := (List.Forall₂.flip (hm.slots hf)).imp fun _ _ he => ⟨he.1.symm, he.2⟩
  content hc := by
    have hv := hm.content hc
    generalize h.content _ = v at hv ⊢
    generalize h'.content _ = v' at hv ⊢
    cases hv with
    | none => exact .none
    | some hv => exact .some hv.swap

end Matching

end Ember

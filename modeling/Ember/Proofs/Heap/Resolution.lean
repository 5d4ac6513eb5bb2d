import Ember.Proofs.Heap.Outer
import Mathlib.Data.List.Nodup

/-!
# How names are resolved

A heap is built by making frames, each with nothing around it or inside one that is there, and by
binding names in them. Along with the heap, a `Building` notes the frame that each frame was made
in and the names that it was given. A frame is made in an older one, so the way outwards ends
(`Building.Sound.older`), and the frames that a frame keeps around it are those on this way
(`Building.Sound.outers`). So the name that is looked up, the names that are listed and the names
that are bound are the same everywhere (`names_resolve`).
-/

namespace Ember

/-! ## Lists without repetitions -/

section

variable {α : Type} [BEq α] [LawfulBEq α]

/-- Without its duplicates a list repeats nothing. -/
theorem nodup_eraseDups : (l : List α) → l.eraseDups.Nodup
  | [] => .nil
  | a :: l => by
    have hrest : (l.filter fun b => !b == a).eraseDups.Nodup := nodup_eraseDups _
    rw [List.eraseDups_cons]
    exact List.nodup_cons.2 ⟨by simp, hrest⟩
termination_by l => l.length
decreasing_by exact Nat.lt_succ_of_le (List.length_filter_le ..)

/-- Whether duplicates go before or after a filter makes no difference. -/
theorem eraseDups_filter (p : α → Bool) : (l : List α) →
    (l.filter p).eraseDups = l.eraseDups.filter p
  | [] => rfl
  | a :: l => by
    have hrest : ((l.filter fun b => !b == a).filter p).eraseDups =
        ((l.filter fun b => !b == a).eraseDups).filter p := eraseDups_filter p _
    rw [List.eraseDups_cons]
    by_cases ha : p a
    · rw [List.filter_cons_of_pos ha, List.filter_cons_of_pos ha, List.eraseDups_cons, ← hrest,
        List.filter_comm]
    · rw [List.filter_cons_of_neg ha, List.filter_cons_of_neg ha, ← hrest, List.filter_filter]
      congr 1
      -- the element is not among those that are kept
      refine List.filter_congr fun b _ => ?_
      by_cases hb : b = a
      · simp [hb, ha]
      · simp [hb]
termination_by l => l.length
decreasing_by exact Nat.lt_succ_of_le (List.length_filter_le ..)

/-- A list that repeats nothing has no duplicates to lose. -/
theorem eraseDups_of_nodup {l : List α} (hl : l.Nodup) : l.eraseDups = l := by
  induction l with
  | nil => rfl
  | cons a l ih =>
    obtain ⟨ha, hl⟩ := List.nodup_cons.1 hl
    have hkept : (l.filter fun b => !b == a) = l :=
      List.filter_eq_self.2 fun b hb => by simpa using ne_of_mem_of_not_mem hb ha
    rw [List.eraseDups_cons, hkept, ih hl]

/-- One more element at the end is kept if it is new. -/
theorem eraseDups_concat [DecidableEq α] (l : List α) (a : α) :
    (l ++ [a]).eraseDups = if a ∈ l then l.eraseDups else l.eraseDups ++ [a] := by
  rw [List.eraseDups_append]
  split
  · next h => simp [List.removeAll, h]
  · next h => simp [List.removeAll, h, List.eraseDups_cons]

end

/-! ## Keys and entries -/

namespace OrderedMap

variable {κ α : Type} [DecidableEq κ] {m : OrderedMap κ α} {key : κ} {value : α}

/-- A new key comes behind the others; one that was there keeps its place. -/
theorem keys_put (m : OrderedMap κ α) (key : κ) (value : α) :
    (m.put key value).keys = if key ∈ m.keys then m.keys else m.keys ++ [key] := by
  obtain ⟨entries⟩ := m
  unfold put keys
  induction entries with
  | nil => rfl
  | cons entry rest ih =>
    obtain ⟨k, v⟩ := entry
    rw [putEntry]
    by_cases hk : k = key
    · simp [hk]
    · simp only [if_neg hk, List.map_cons, ih, List.mem_cons, Ne.symm hk, false_or]
      split <;> rfl

/-- A key is not found exactly if it is none of the keys. -/
theorem get?_eq_none_iff : m.get? key = none ↔ key ∉ m.keys := by
  simp only [get?, keys, Option.map_eq_none_iff, List.find?_eq_none, decide_eq_true_eq,
    List.mem_map, not_exists, not_and]

/-- A key that is there once stands beside what is found at it. -/
theorem mem_entries_iff (hm : m.keys.Nodup) :
    (key, value) ∈ m.entries ↔ m.get? key = some value := by
  obtain ⟨entries⟩ := m
  unfold get? keys at *
  induction entries with
  | nil => simp
  | cons entry rest ih =>
    obtain ⟨k, v⟩ := entry
    obtain ⟨hnot, hrest⟩ := List.nodup_cons.1 hm
    by_cases hk : k = key
    · subst hk
      have hother : (k, value) ∉ rest := fun hmem => hnot (List.mem_map.2 ⟨_, hmem, rfl⟩)
      simp [hother, eq_comm]
    · simpa [hk, Ne.symm hk] using ih hrest

end OrderedMap

namespace Heap

section

variable {h : Heap} {f g : FrameId} {x : String} {value : Option Value} {cell : CellId}

/-! ## Names of a frame -/

/-- A new frame is on no chain of the frames before it. -/
theorem chain_addFrame {fr : Frame} (hg : g < h.frames.size) :
    (h.addFrame fr).2.chain g = h.chain g := by
  rw [chain, frame_addFrame, if_neg (Nat.ne_of_lt hg), chain]

/-- A frame that is there gets a name behind those that it has. -/
theorem keys_declare (hf : f < h.frames.size) : ((h.declare f x value).frame g).slots.keys =
    if g = f ∧ x ∉ (h.frame g).slots.keys then (h.frame g).slots.keys ++ [x]
    else (h.frame g).slots.keys := by
  rw [slots_declare]
  by_cases hg : g = f
  · rw [if_pos ⟨hg, hf⟩, OrderedMap.keys_put]
    by_cases hx : x ∈ (h.frame g).slots.keys
    · rw [if_pos hx, if_neg fun hall => hall.2 hx]
    · rw [if_neg hx, if_pos ⟨hg, hx⟩]
  · rw [if_neg fun hall => hg hall.1, if_neg fun hall => hg hall.1]

/-- An assignment adds the name to the frame it is made in, if it is new there. -/
theorem keys_assign (hf : f < h.frames.size) : ((h.assign f x value).frame g).slots.keys =
    if g = f ∧ x ∉ (h.frame g).slots.keys then (h.frame g).slots.keys ++ [x]
    else (h.frame g).slots.keys := by
  cases hs : h.slot? f x with
  | none =>
    rw [assign_of_no_slot hs]
    exact keys_declare hf
  | some cell =>
    rw [assign_of_slot hs, if_neg]
    · rfl
    · rintro ⟨rfl, hx⟩
      rw [slot?, OrderedMap.get?_eq_none_iff.2 hx] at hs
      cases hs

end

/-! ## Buildings -/

/-- A step in the making of a heap: the frame of another program, or a change. -/
inductive Making where
  | create
  | change (c : Change)

/-- The frame that has to be there for a step. -/
def Making.frame? : Making → Option FrameId
  | .create => none
  | .change c => some c.frame

/-- A heap, and what was done to make it. -/
structure Building where
  heap : Heap
  /-- The frame that a frame was made in. -/
  outer : FrameId → Option FrameId
  /-- The names that a frame was given, one after the other and with repetitions. A snapshot
  starts with those of its frame. -/
  given : FrameId → List String

namespace Building

/-- Nothing has been made. -/
def empty : Building where
  heap := { frames := #[] }
  outer := fun _ => none
  given := fun _ => []

/-- A frame has been made. -/
def withFrame (b : Building) (heap : Heap) (outer : Option FrameId) (given : List String) :
    Building where
  heap := heap
  outer := fun f => if f = b.heap.frames.size then outer else b.outer f
  given := fun f => if f = b.heap.frames.size then given else b.given f

/-- A frame has been given a name. -/
def withName (b : Building) (heap : Heap) (f : FrameId) (name : String) : Building where
  heap := heap
  outer := b.outer
  given := fun g => if g = f then b.given g ++ [name] else b.given g

/-- The building after one more step. -/
def step (b : Building) : Making → Building
  | .create => b.withFrame b.heap.create.2 none []
  | .change (.enclose f name) => b.withFrame (b.heap.enclose f name).2 (some f) []
  | .change (.capture f) => b.withFrame (b.heap.capture f).2 (some f) (b.given f)
  | .change (.declare f name value) => b.withName (b.heap.declare f name value) f name
  | .change (.assign f name value) => b.withName (b.heap.assign f name value) f name

/-- The building after more steps, one after the other. -/
def build (b : Building) (ms : List Making) : Building :=
  ms.foldl step b

/-- Each step is made in or to a frame that is there. -/
def Feasible (b : Building) : List Making → Prop
  | [] => True
  | m :: ms => (∀ f ∈ m.frame?, f < b.heap.frames.size) ∧ (b.step m).Feasible ms

instance (b : Building) : (ms : List Making) → Decidable (b.Feasible ms)
  | [] => .isTrue trivial
  | m :: ms =>
    have := instDecidableFeasible (b.step m) ms
    inferInstanceAs (Decidable ((∀ f ∈ m.frame?, f < b.heap.frames.size) ∧ (b.step m).Feasible ms))

variable {b : Building} {m : Making} {ms : List Making} {f g : FrameId} {x : String}

section

variable {heap : Heap} {outer : Option FrameId} {given : List String}

@[simp] theorem heap_withFrame : (b.withFrame heap outer given).heap = heap := rfl

@[simp] theorem outer_withFrame : (b.withFrame heap outer given).outer f =
    if f = b.heap.frames.size then outer else b.outer f := rfl

@[simp] theorem given_withFrame : (b.withFrame heap outer given).given f =
    if f = b.heap.frames.size then given else b.given f := rfl

@[simp] theorem heap_withName : (b.withName heap f x).heap = heap := rfl

@[simp] theorem outer_withName : (b.withName heap f x).outer = b.outer := rfl

@[simp] theorem given_withName : (b.withName heap f x).given g =
    if g = f then b.given g ++ [x] else b.given g := rfl

end

/-! ## What the heap keeps of its making -/

/-- The heap has the frames and the names that were made. -/
structure Sound (b : Building) : Prop where
  older : ∀ {f g}, b.outer f = some g → g < f
  outers : ∀ f, (b.heap.frame f).outers = (b.outer f).elim [] b.heap.chain
  keys : ∀ f, (b.heap.frame f).slots.keys = (b.given f).eraseDups
  vacant : ∀ {f}, b.heap.frames.size ≤ f → b.outer f = none ∧ b.given f = []

/-- Nothing that was made is sound. -/
theorem sound_empty : empty.Sound where
  older := nofun
  outers := fun f => by rw [frame_of_le (Nat.zero_le f)]; rfl
  keys := fun f => by rw [frame_of_le (Nat.zero_le f)]; rfl
  vacant := fun _ => ⟨rfl, rfl⟩

/-- The frame around another one was made before it. -/
theorem Sound.lt_of_outer (hb : b.Sound) (hg : b.outer f = some g) : f < b.heap.frames.size := by
  by_contra hf
  rw [(hb.vacant (Nat.not_lt.1 hf)).1] at hg
  cases hg

/-- A frame is made in one that is there, or with nothing around it. -/
theorem Sound.withFrame (hb : b.Sound) {fr : Frame} {outer : Option FrameId} {given : List String}
    (hlt : ∀ g ∈ outer, g < b.heap.frames.size) (houters : fr.outers = outer.elim [] b.heap.chain)
    (hkeys : fr.slots.keys = given.eraseDups) :
    (b.withFrame (b.heap.addFrame fr).2 outer given).Sound := by
  have hchain : ∀ o : Option FrameId, (∀ g ∈ o, g < b.heap.frames.size) →
      o.elim [] (b.heap.addFrame fr).2.chain = o.elim [] b.heap.chain := by
    intro o ho
    cases o with
    | none => rfl
    | some g => exact chain_addFrame (ho g rfl)
  exact {
    older := fun {f g} hg => by
      rw [outer_withFrame] at hg
      split at hg
      · next he => exact he ▸ hlt g hg
      · exact hb.older hg
    outers := fun f => by
      rw [heap_withFrame, outer_withFrame, frame_addFrame]
      split
      · rw [houters, hchain outer hlt]
      · rw [hb.outers, hchain _ fun g hg => Nat.lt_trans (hb.older hg) (hb.lt_of_outer hg)]
    keys := fun f => by
      rw [heap_withFrame, given_withFrame, frame_addFrame]
      split
      · exact hkeys
      · exact hb.keys f
    vacant := fun {f} hf => by
      rw [heap_withFrame, frames_addFrame] at hf
      have hne : f ≠ b.heap.frames.size := Nat.ne_of_gt hf
      rw [outer_withFrame, given_withFrame, if_neg hne, if_neg hne]
      exact hb.vacant (Nat.le_of_succ_le hf) }

/-- A frame that is there is given a name. -/
theorem Sound.withName (hb : b.Sound) {heap : Heap} (hf : f < b.heap.frames.size)
    (hsize : heap.frames.size = b.heap.frames.size)
    (houters : ∀ g, (heap.frame g).outers = (b.heap.frame g).outers)
    (hkeys : ∀ g, (heap.frame g).slots.keys =
      if g = f ∧ x ∉ (b.heap.frame g).slots.keys then (b.heap.frame g).slots.keys ++ [x]
      else (b.heap.frame g).slots.keys) :
    (b.withName heap f x).Sound := by
  have hchain : heap.chain = b.heap.chain := funext fun g => by rw [chain, houters, chain]
  exact {
    older := hb.older
    outers := fun g => by rw [heap_withName, outer_withName, houters, hchain, hb.outers]
    keys := fun g => by
      rw [heap_withName, given_withName]
      simp only [hkeys, hb.keys, List.mem_eraseDups]
      by_cases hgf : g = f
      · rw [if_pos hgf, eraseDups_concat]
        by_cases hx : x ∈ b.given g
        · rw [if_pos hx, if_neg fun hall => hall.2 hx]
        · rw [if_neg hx, if_pos ⟨hgf, hx⟩]
      · rw [if_neg hgf, if_neg fun hall => hgf hall.1]
    vacant := fun {g} hg => by
      rw [heap_withName, hsize] at hg
      rw [outer_withName, given_withName, if_neg (Nat.ne_of_gt (Nat.lt_of_lt_of_le hf hg))]
      exact hb.vacant hg }

/-- **What the heap keeps is what was done.** -/
theorem Sound.step (hb : b.Sound) (hm : ∀ f ∈ m.frame?, f < b.heap.frames.size) :
    (b.step m).Sound := by
  cases m with
  | create => exact hb.withFrame nofun rfl rfl
  | change c =>
    have hc : c.frame < b.heap.frames.size := hm _ rfl
    have hsome : ∀ g ∈ some c.frame, g < b.heap.frames.size := fun g hg => by cases hg; exact hc
    cases c with
    | enclose f name => exact hb.withFrame hsome rfl rfl
    | capture f => exact hb.withFrame hsome rfl (hb.keys f)
    | declare f name value =>
      exact hb.withName hc (frames_declare ..) (outers_declare b.heap f name value)
        fun g => keys_declare hc
    | assign f name value =>
      exact hb.withName hc (frames_assign ..) (outers_assign b.heap f name value)
        fun g => keys_assign hc

/-- **What is made step by step is sound.** -/
theorem Sound.build (hb : b.Sound) (hms : b.Feasible ms) : (b.build ms).Sound := by
  induction ms generalizing b with
  | nil => exact hb
  | cons m ms ih => exact ih (hb.step hms.1) hms.2

/-! ## Ways outwards -/

/-- Frames are asked one after the other, from a frame on outwards, until one has an answer: the
frames that were asked, and the answer, if there is one. -/
inductive Walk {α : Type} (outer : FrameId → Option FrameId) (ask : FrameId → Option α) :
    Option FrameId → List FrameId → Option α → Prop
  | outside : Walk outer ask none [] none
  | answered {f : FrameId} {a : α} : ask f = some a → Walk outer ask (some f) [f] (some a)
  | onwards {f : FrameId} {asked : List FrameId} {r : Option α} : ask f = none →
      Walk outer ask (outer f) asked r → Walk outer ask (some f) (f :: asked) r

section

variable {α : Type} {ask : FrameId → Option α} {outer : FrameId → Option FrameId}
  {start : Option FrameId} {asked asked' : List FrameId} {r r' : Option α}

/-- A walk along the outer frames asks the same frames and comes to the same end. -/
theorem Walk.unique (h : Walk outer ask start asked r) (h' : Walk outer ask start asked' r') :
    asked = asked' ∧ r = r' := by
  induction h generalizing asked' with
  | outside =>
    cases h'
    exact ⟨rfl, rfl⟩
  | answered ha =>
    cases h' with
    | answered ha' => exact ⟨rfl, ha.symm.trans ha'⟩
    | onwards ha' => exact absurd (ha.symm.trans ha') nofun
  | onwards ha _ ih =>
    cases h' with
    | answered ha' => exact absurd (ha.symm.trans ha') nofun
    | onwards _ h' =>
      obtain ⟨rfl, rfl⟩ := ih h'
      exact ⟨rfl, rfl⟩

/-- A frame comes first, and then those that the frame around it goes on with. -/
theorem Sound.chain_eq (hb : b.Sound) (f : FrameId) :
    b.heap.chain f = f :: (b.outer f).elim [] b.heap.chain := by
  rw [chain, hb.outers]

/-- **The way outwards ends**: it leads to older frames, through those that the heap keeps. -/
theorem Sound.exists_walk (hb : b.Sound) (ask : FrameId → Option α) (f : FrameId) :
    ∃ asked, Walk b.outer ask (some f) asked ((b.heap.chain f).findSome? ask) ∧
      ((b.heap.chain f).findSome? ask = none → asked = b.heap.chain f) := by
  -- on the number of the frame, since the frame that it was made in has a smaller one
  induction f using Nat.strongRecOn with
  | ind f ih =>
    rw [hb.chain_eq f, List.findSome?_cons]
    cases ha : ask f with
    | some a => exact ⟨[f], .answered ha, nofun⟩
    | none =>
      dsimp only
      cases ho : b.outer f with
      | none =>
        have hwalk : Walk b.outer ask (b.outer f) [] none := ho ▸ .outside
        exact ⟨[f], .onwards ha hwalk, fun _ => rfl⟩
      | some g =>
        obtain ⟨asked, hwalk, hall⟩ := ih g (hb.older ho)
        rw [← ho] at hwalk
        exact ⟨f :: asked, .onwards ha hwalk, fun hnone => congrArg (f :: ·) (hall hnone)⟩

/-- Whatever is looked for on the way outwards is found where the heap finds it. -/
theorem Sound.walk_iff (hb : b.Sound) (ask : FrameId → Option α) (f : FrameId) (r : Option α) :
    (∃ asked, Walk b.outer ask (some f) asked r) ↔ r = (b.heap.chain f).findSome? ask := by
  obtain ⟨asked, hwalk, -⟩ := hb.exists_walk ask f
  constructor
  · rintro ⟨asked', hwalk'⟩
    exact (hwalk'.unique hwalk).2
  · rintro rfl
    exact ⟨asked, hwalk⟩

end

/-- Every frame on the way outwards is older than those before it. -/
theorem Sound.pairwise_chain (hb : b.Sound) (f : FrameId) :
    (b.heap.chain f).Pairwise (· > ·) ∧ ∀ g ∈ b.heap.chain f, g ≤ f := by
  induction f using Nat.strongRecOn with
  | ind f ih =>
    rw [hb.chain_eq f]
    cases ho : b.outer f with
    | none =>
      refine ⟨List.pairwise_singleton _ _, fun g hg => ?_⟩
      exact Nat.le_of_eq (List.mem_singleton.1 hg)
    | some g =>
      obtain ⟨hsorted, hle⟩ := ih g (hb.older ho)
      have hlt : ∀ e ∈ b.heap.chain g, e < f := fun e he =>
        Nat.lt_of_le_of_lt (hle e he) (hb.older ho)
      refine ⟨List.pairwise_cons.2 ⟨hlt, hsorted⟩, ?_⟩
      exact List.forall_mem_cons.2 ⟨Nat.le_refl f, fun e he => Nat.le_of_lt (hlt e he)⟩

/-! ## Names that are seen -/

/-- The names that are seen from a frame inside others, by the names that each was given: its own,
in the order in which it was first given them, and those that are seen from the frame around it
and are none of its own. -/
def seen (given : FrameId → List String) : List FrameId → List String
  | [] => []
  | f :: around => (given f).eraseDups ++ (seen given around).filter fun x => x ∉ given f

/-- Duplicates inside one frame make no difference to the names seen from it. -/
theorem eraseDups_flatMap (given : FrameId → List String) (fs : List FrameId) :
    (fs.flatMap fun f => (given f).eraseDups).eraseDups = seen given fs := by
  induction fs with
  | nil => rfl
  | cons f around ih =>
    have hown : (given f).eraseDups.eraseDups = (given f).eraseDups :=
      eraseDups_of_nodup (nodup_eraseDups _)
    rw [List.flatMap_cons, List.eraseDups_append, hown, List.removeAll, eraseDups_filter, ih, seen]
    congr 1
    exact List.filter_congr fun x _ => by simp

end Building

section

variable {h : Heap} {f g : FrameId} {x : String} {v : Option Value}

/-- The names of a frame are those that a frame of its chain binds. -/
theorem mem_names_iff : x ∈ h.names f ↔ ∃ g ∈ h.chain f, x ∈ (h.frame g).slots.keys := by
  simp only [names, List.mem_eraseDups, List.mem_flatMap]

/-- A lookup finds nothing exactly for what is not a name of the frame. -/
theorem lookup_eq_none_iff : h.lookup f x = none ↔ x ∉ h.names f := by
  simp only [lookup, List.findSome?_eq_none_iff, OrderedMap.get?_eq_none_iff, mem_names_iff,
    not_exists, not_and]

/-- A name has no value exactly if it is none of the names. -/
theorem get?_eq_none_iff : h.get? f x = none ↔ x ∉ h.names f := by
  rw [get?, Option.map_eq_none_iff, lookup_eq_none_iff]

/-- A frame contains exactly its names. -/
theorem contains_iff : h.contains f x = true ↔ x ∈ h.names f := by
  rw [contains, Option.isSome_iff_ne_none, ne_eq, lookup_eq_none_iff, not_not]

/-- An evaluation that gets a name comes to its value and changes nothing. -/
theorem run_get_eq_ok_iff {span : Option Span} :
    Run.get f x span h = .ok v h ↔ h.get? f x = some v := by
  rw [Run.get_apply]
  cases h.get? f x <;> simp

/-- An evaluation that gets a name fails exactly for what is not a name. -/
theorem run_get_eq_error_iff {span : Option Span} :
    Run.get f x span h = .error (.failed (.undefined x) span) h ↔ x ∉ h.names f := by
  rw [Run.get_apply, ← get?_eq_none_iff]
  cases h.get? f x <;> simp

theorem exists_run_get_iff {span : Option Span} :
    (∃ v, Run.get f x span h = .ok v h) ↔ x ∈ h.names f := by
  simp only [run_get_eq_ok_iff, ← Option.isSome_iff_exists, Option.isSome_iff_ne_none, ne_eq,
    get?_eq_none_iff, not_not]

/-- A frame shows a name with the content of its cell. -/
theorem mem_bindings_iff (hg : (h.frame g).slots.keys.Nodup) :
    (x, v) ∈ h.bindings g ↔ ∃ c, h.slot? g x = some c ∧ h.content c = v := by
  unfold bindings
  simp only [List.mem_map, Prod.exists, Prod.mk.injEq]
  constructor
  · rintro ⟨y, c, hmem, rfl, rfl⟩
    exact ⟨c, (OrderedMap.mem_entries_iff hg).1 hmem, rfl⟩
  · rintro ⟨c, hslot, rfl⟩
    exact ⟨x, c, (OrderedMap.mem_entries_iff hg).2 hslot, rfl, rfl⟩

end

namespace Building

variable {b : Building} {ms : List Making} {f : FrameId}

/-- How names are resolved in a frame. -/
structure Resolves (b : Building) (f : FrameId) : Prop where
  /-- Each frame on the way outwards is older than those before it. -/
  older : (b.heap.chain f).Pairwise (· > ·)
  /-- The way from each frame to the one that it was made in ends. -/
  ends : ∀ way, Walk b.outer (fun _ => (none : Option Unit)) (some f) way none ↔
    way = b.heap.chain f
  /-- Looking for the cell of a name on this way ends. -/
  lookup : ∀ x r, (∃ asked, Walk b.outer (b.heap.slot? · x) (some f) asked r) ↔
    r = b.heap.lookup f x
  /-- Names are listed once. -/
  nodup : (b.heap.names f).Nodup
  /-- They are listed frame by frame, those of a frame in the order of their first binding. -/
  names : b.heap.names f = seen b.given (b.heap.chain f)
  /-- The names that are listed are those that are bound. -/
  contains : ∀ x, x ∈ b.heap.names f ↔ b.heap.contains f x = true
  /-- They have a value, or are bound to none; any other name is undefined. -/
  bound : ∀ x span, x ∈ b.heap.names f ↔ ∃ v, Run.get f x span b.heap = .ok v b.heap
  unbound : ∀ x span, x ∉ b.heap.names f ↔
    Run.get f x span b.heap = .error (.failed (.undefined x) span) b.heap
  /-- A name stands for what it is bound to in the innermost frame that was given it. -/
  value : ∀ x span v, Run.get f x span b.heap = .ok v b.heap ↔
    ∃ inner g outer, b.heap.chain f = inner ++ g :: outer ∧ (∀ e ∈ inner, x ∉ b.given e) ∧
      (x, v) ∈ b.heap.bindings g

/-- The walk that nobody stops goes along the whole chain. -/
theorem Sound.walk_iff_chain (hb : b.Sound) (way : List FrameId) :
    Walk b.outer (fun _ => (none : Option Unit)) (some f) way none ↔ way = b.heap.chain f := by
  have hnever : (b.heap.chain f).findSome? (fun _ => (none : Option Unit)) = none :=
    List.findSome?_eq_none_iff.2 fun _ _ => rfl
  obtain ⟨asked, hwalk, hall⟩ := hb.exists_walk (fun _ => (none : Option Unit)) f
  rw [hnever] at hwalk
  obtain rfl := hall hnever
  constructor
  · exact fun h => (h.unique hwalk).1
  · rintro rfl
    exact hwalk

/-- The names of a frame are those given to the frames of its chain, in the order in which they are
first seen. -/
theorem Sound.names_eq (hb : b.Sound) (f : FrameId) :
    b.heap.names f = seen b.given (b.heap.chain f) := by
  unfold Heap.names
  simp only [hb.keys]
  exact eraseDups_flatMap b.given (b.heap.chain f)

/-- No frame binds a name twice. -/
theorem Sound.keys_nodup (hb : b.Sound) (f : FrameId) : (b.heap.frame f).slots.keys.Nodup := by
  rw [hb.keys]
  exact nodup_eraseDups _

/-- A frame binds the names that it was given. -/
theorem Sound.slot?_eq_none_iff (hb : b.Sound) : b.heap.slot? f x = none ↔ x ∉ b.given f := by
  rw [slot?, OrderedMap.get?_eq_none_iff, hb.keys, List.mem_eraseDups]

/-- A name has the value that the innermost frame gives it. -/
theorem Sound.get?_eq_some_iff (hb : b.Sound) {v : Option Value} : b.heap.get? f x = some v ↔
    ∃ inner g outer, b.heap.chain f = inner ++ g :: outer ∧ (∀ e ∈ inner, x ∉ b.given e) ∧
      (x, v) ∈ b.heap.bindings g := by
  have hlookup : b.heap.lookup f x = (b.heap.chain f).findSome? (b.heap.slot? · x) := rfl
  simp only [get?, Option.map_eq_some_iff, hlookup, List.findSome?_eq_some_iff,
    mem_bindings_iff (hb.keys_nodup _), hb.slot?_eq_none_iff]
  constructor
  · rintro ⟨c, ⟨inner, g, outer, hchain, hslot, hinner⟩, hc⟩
    exact ⟨inner, g, outer, hchain, hinner, c, hslot, hc⟩
  · rintro ⟨inner, g, outer, hchain, hinner, c, hslot, hc⟩
    exact ⟨c, ⟨inner, g, outer, hchain, hslot, hinner⟩, hc⟩

/-- **Names resolve in every frame of what was made.** -/
theorem Sound.resolves (hb : b.Sound) (f : FrameId) : b.Resolves f where
  older := (hb.pairwise_chain f).1
  ends := fun _ => hb.walk_iff_chain _
  lookup := fun _ r => hb.walk_iff _ f r
  nodup := nodup_eraseDups _
  names := hb.names_eq f
  contains := fun _ => contains_iff.symm
  bound := fun _ _ => exists_run_get_iff.symm
  unbound := fun _ _ => run_get_eq_error_iff.symm
  value := fun _ _ _ => run_get_eq_ok_iff.trans hb.get?_eq_some_iff

end Building

end Heap

open Heap

/-- **Names are resolved in one way.** A heap is built by any steps, each made in or to a frame
that is there. From every frame of it the way outwards leads to older frames and ends, so that
names are looked up and listed. The names that are listed are those that are bound, with a value
or without: each once, frame by frame from the innermost, and in a frame in the order of their
first binding. A name stands for what it is bound to in the innermost frame that binds it. -/
theorem names_resolve (ms : List Making) (hms : Building.empty.Feasible ms) (f : FrameId) :
    (Building.empty.build ms).Resolves f := by
  have hb : (Building.empty.build ms).Sound := Building.sound_empty.build hms
  exact hb.resolves f

/-- A snapshot with a name declared behind it, in both frames. -/
theorem names_resolve_snapshot :
    let ms : List Making :=
      [.create, .change (.declare 0 "a" (some (.integer 1))),
        .change (.declare 0 "b" (some (.integer 2))), .change (.enclose 0 "call"),
        .change (.assign 1 "c" none), .change (.declare 1 "b" none),
        .change (.declare 1 "c" (some (.integer 3))), .change (.capture 1), .create,
        .change (.declare 3 "d" none)]
    let h := (Building.empty.build ms).heap
    Building.empty.Feasible ms ∧ h.names 2 = ["c", "b", "a"] ∧ h.contains 2 "d" = false ∧
      Run.get 2 "b" none h = .ok none h ∧ Run.get 2 "a" none h = .ok (some (.integer 1)) h ∧
      Run.get 2 "d" none h = .error (.failed (.undefined "d") none) h := by
  intro ms h
  have hms : Building.empty.Feasible ms := by decide
  have hr := names_resolve ms hms 2
  have hnames : h.names 2 = ["c", "b", "a"] := hr.names.trans (by decide)
  have hd : "d" ∉ h.names 2 := by rw [hnames]; decide
  have hb : ("b", none) ∈ h.bindings 2 := .tail _ (.head _)
  have ha : ("a", some (.integer 1)) ∈ h.bindings 0 := .head _
  refine ⟨hms, hnames, ?_, ?_, ?_, (hr.unbound "d" none).1 hd⟩
  · exact Bool.eq_false_iff.2 fun hc => hd ((hr.contains "d").2 hc)
  · exact (hr.value "b" none none).2 ⟨[], 2, [1, 0], by decide, nofun, hb⟩
  · exact (hr.value "a" none _).2 ⟨[2, 1], 0, [], by decide, by decide, ha⟩

end Ember

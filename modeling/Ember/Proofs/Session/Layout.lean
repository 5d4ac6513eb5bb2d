import Ember.Proofs.Parse.Twins
import Ember.Proofs.Session.Ends
import Ember.Proofs.Session.Twins
import Ember.Proofs.Token.Layout

/-!
# Layout of a source

Blanks do not matter: a source that is laid out differently has the same tokens, and a call
with it says and does the same, up to the places that are named
(`Source.Relaid.evaluate_relaid`).
-/

namespace Ember

open Heap

/-! ## Heaps that differ in places only -/

/-- Everything is paired with itself. -/
def Matching.same : Matching :=
  { frames := (· = ·), cells := (· = ·) }

/-- The heaps have the same frames and cells: the same frames around each frame, the same
cells bound to the same names in the same order, and the same values in the cells, up to the
spans in the bodies of functions. -/
structure Heap.Alike (h h' : Heap) : Prop where
  joins : Matching.same.Joins (Node.Alike nowhere) h h'
  fits : Matching.same.Fits h h'

/-- The names that a frame binds, in order, and what is shown of their values. -/
def Heap.shown (h : Heap) (f : FrameId) : List (String × Except Fault String) :=
  (h.bindings f).map fun (name, value) => (name, displayOf value)

/-- A matching that pairs everything with itself pairs nothing else. -/
theorem Matching.Joins.eq_same {m : Matching} {B : BodyRel} {h h' : Heap} (hm : m.Joins B h h')
    (he : Matching.same.Extends m) : m = Matching.same := by
  obtain ⟨frames, cells⟩ := m
  rw [Matching.same, Matching.mk.injEq]
  constructor
  · funext f f'
    refine propext ⟨fun hf => ?_, fun hf => he.frames hf⟩
    exact ((hm.frame_iff hf (he.frames rfl)).1 rfl).symm
  · funext c c'
    refine propext ⟨fun hc => ?_, fun hc => he.cells hc⟩
    exact ((hm.cell_iff hc (he.cells rfl)).1 rfl).symm

namespace Heap.Alike

variable {h h' : Heap} {f : FrameId}

theorem refl (h : Heap) : h.Alike h where
  joins := by
    refine ⟨?_, ?_, ?_, ?_, ?_⟩
    · rintro f _ g _ rfl rfl
      rfl
    · rintro c _ d _ rfl rfl
      rfl
    · rintro f _ rfl
      exact List.forall₂_same.2 fun _ _ => rfl
    · rintro f _ rfl
      exact List.forall₂_same.2 fun _ _ => ⟨rfl, rfl⟩
    · rintro c _ rfl
      cases h.content c with
      | none => exact .none
      | some v =>
        cases v with
        | integer n => exact .some (.integer n)
        | boolean b => exact .some (.boolean b)
        | function c => exact .some (.function c.parameters rfl rfl)
  fits := by
    -- what is not there yet is as far ahead on both sides
    have hlevel : ∀ bound n, Matching.Level bound bound n n := fun bound n => by
      rcases Nat.lt_or_ge n bound with hn | hn
      · exact .inl ⟨hn, hn⟩
      · exact .inr ⟨n - bound, by omega, by omega⟩
    refine ⟨?_, ?_⟩
    · rintro f _ rfl
      exact hlevel _ _
    · rintro c _ rfl
      exact hlevel _ _

theorem outers (hh : h.Alike h') (f : FrameId) : (h.frame f).outers = (h'.frame f).outers := by
  rw [← List.forall₂_eq_eq_eq]
  exact hh.joins.outers rfl

theorem slots (hh : h.Alike h') (f : FrameId) :
    (h.frame f).slots.entries = (h'.frame f).slots.entries := by
  have hs : List.Forall₂ _ _ _ := hh.joins.slots (show Matching.same.frames f f from rfl)
  rw [← List.forall₂_eq_eq_eq]
  exact hs.imp fun _ _ he => Prod.ext he.1 he.2

/-- The same names are bound. -/
theorem names (hh : h.Alike h') (f : FrameId) : h.names f = h'.names f := by
  unfold Heap.names chain OrderedMap.keys
  simp only [hh.outers, hh.slots]

/-- Their values are shown alike. -/
theorem shown (hh : h.Alike h') (f : FrameId) : h.shown f = h'.shown f := by
  unfold Heap.shown bindings
  rw [List.map_map, List.map_map, hh.slots]
  refine List.map_congr_left fun entry _ => ?_
  have hv := hh.joins.content (show Matching.same.cells entry.2 entry.2 from rfl)
  exact Prod.ext rfl hv.displayOf

/-- Alike programs run alike in alike heaps. -/
theorem run (hh : h.Alike h') (f : FrameId) {p p' : Program}
    (hns : List.Forall₂ (Node.Alike nowhere) p.statements p'.statements) (limit : Int)
    (rounds : Nat) :
    (h.run f p limit rounds).2.Alike (h'.run f p' limit rounds).2 ∧
      Ran nowhere .same (h.run f p limit rounds).1 (h'.run f p' limit rounds).1 := by
  have hspan : nowhere p.span = nowhere p'.span := rfl
  have hf : Matching.same.frames f f := rfl
  obtain ⟨m, hgrows, hran⟩ := Heap.run_twins hh.joins hh.fits hf hspan hns limit rounds
  obtain rfl := hgrows.joins.eq_same hgrows.keeps
  exact ⟨⟨hgrows.joins, hgrows.fits⟩, hran⟩

end Heap.Alike

/-! ## Calls that differ in places only -/

/-- What a diagnostic says beside the place. -/
def Diagnostic.saying (d : Diagnostic) : String × String × List String :=
  (d.code, d.message, d.hints)

/-- The outcomes are the same up to places: the same is said about the source, or the values
have the same type and are shown alike. -/
inductive Outcome.Alike : Outcome → Outcome → Prop
  | rejected {ds ds' : List Diagnostic} : ds.map Diagnostic.saying = ds'.map Diagnostic.saying →
      Outcome.Alike (.rejected ds) (.rejected ds')
  | failed (cause : RuntimeCause) {d d' : Diagnostic} : d.saying = d'.saying →
      Outcome.Alike (.failed cause d) (.failed cause d')
  | finished {v v' : Option Value} : typeNameOf v = typeNameOf v' → displayOf v = displayOf v' →
      Outcome.Alike (.finished v) (.finished v')

/-- The evaluations ended in the same fault, or their outcomes are the same up to places. -/
inductive OutcomesAlike : Except Fault Outcome → Except Fault Outcome → Prop
  | fault (reason : Fault) : OutcomesAlike (.error reason) (.error reason)
  | ok {o o' : Outcome} : o.Alike o' → OutcomesAlike (.ok o) (.ok o')

/-- The calls ended in the same fault, or the parses and the evaluations are the same up to
places. -/
inductive CallsAlike : Except Fault Evaluated → Except Fault Evaluated → Prop
  | fault (reason : Fault) : CallsAlike (.error reason) (.error reason)
  | ok {e e' : Evaluated} : e.parsed.Alike e'.parsed → OutcomesAlike e.outcome e'.outcome →
      CallsAlike (.ok e) (.ok e')

theorem Ran.quoting {m : Matching} {r r' : Except Fault Outcome} (h : Ran nowhere m r r')
    (s s' : Source) :
    OutcomesAlike (r.map (Outcome.quoting s)) (r'.map (Outcome.quoting s')) := by
  cases h with
  | fault reason => exact .fault reason
  | failed cause _ => exact .ok (.failed cause rfl)
  | finished hv => exact .ok (.finished hv.typeName hv.displayOf)

/-- Parses with the same problems up to places say the same. -/
theorem Parsed.Alike.sayings {p p' : Parsed} (hp : p.Alike p') (s s' : Source) :
    (p.diagnostics s).map Diagnostic.saying = (p'.diagnostics s').map Diagnostic.saying := by
  have hcauses := congrArg
    (List.map fun c : SyntaxCause => (c.code, c.message, c.hints)) hp.problems
  rw [List.map_map, List.map_map] at hcauses
  unfold diagnostics
  rw [List.map_map, List.map_map]
  exact hcauses

/-- **Sources that are parsed alike are evaluated alike.** -/
theorem Heap.Alike.evaluate {h h' : Heap} (hh : h.Alike h') (f : FrameId) {s s' : Source}
    {limits : Limits} (hparse : ParsesAlike (s.parse limits) (s'.parse limits)) (rounds : Nat) :
    CallsAlike (h.evaluate f s limits rounds).1 (h'.evaluate f s' limits rounds).1 ∧
      (h.evaluate f s limits rounds).2.Alike (h'.evaluate f s' limits rounds).2 := by
  unfold Heap.evaluate
  generalize s.parse limits = r at hparse ⊢
  generalize s'.parse limits = r' at hparse ⊢
  cases hparse with
  | fault reason => exact ⟨.fault reason, hh⟩
  | @ok p p' hp =>
    have hempty : p.problems.isEmpty = p'.problems.isEmpty := by
      have hsize : p.problems.size = p'.problems.size := by
        simpa using congrArg List.length hp.problems
      simp only [Array.isEmpty, hsize]
    dsimp only
    rw [hempty]
    split
    · obtain ⟨hheap, hran⟩ := hh.run f hp.statements limits.depth rounds
      exact ⟨.ok hp (hran.quoting s s'), hheap⟩
    · exact ⟨.ok hp (.ok (.rejected (hp.sayings s s'))), hh⟩

/-- **Layout does not matter.** A source that is laid out differently has tokens of the same
kinds and with the same texts, and whatever the heap, the frame and the limits, a call with it
ends like a call with the other: the same problems in the same order, the same tree, the same
value or the same failure, up to places. Every frame then binds the same names, in the same
order, to values that are shown alike. -/
theorem Source.Relaid.evaluate_relaid {s s' : Source} (hs : s.Relaid s') :
    s.tokens.map Token.bare = s'.tokens.map Token.bare ∧
    ∀ (h : Heap) (f : FrameId) (limits : Limits) (rounds : Nat),
      CallsAlike (h.evaluate f s limits rounds).1 (h.evaluate f s' limits rounds).1 ∧
      ∀ g, (h.evaluate f s limits rounds).2.names g = (h.evaluate f s' limits rounds).2.names g ∧
        (h.evaluate f s limits rounds).2.shown g = (h.evaluate f s' limits rounds).2.shown g := by
  refine ⟨hs.tokens, fun h f limits rounds => ?_⟩
  obtain ⟨hcalls, hheap⟩ := (Heap.Alike.refl h).evaluate f (parse_twins limits hs.tokens) rounds
  exact ⟨hcalls, fun g => ⟨hheap.names g, hheap.shown g⟩⟩

/-- A source without more blanks than it needs. -/
def denseSample : Source := { text := "let a=1;" }

/-- The same with another layout. -/
def airySample : Source := { text := "\nlet  a =\t1 ; " }

theorem evaluate_relaid_airy :
    denseSample.Relaid airySample ∧
      CallsAlike (initial.evaluate globalFrame denseSample {} 0).1
        (initial.evaluate globalFrame airySample {} 0).1 ∧
      (initial.evaluate globalFrame denseSample {} 0).2.shown globalFrame =
        (initial.evaluate globalFrame airySample {} 0).2.shown globalFrame := by
  have htokens : denseSample.programTokens.map Token.bare =
      [(.letWord, "let"), (.identifier, "a"), (.assign, "="), (.integer, "1"),
        (.semicolon, ";")] := by decide +kernel
  have hlaid : Relaid
      [(.letWord, "let"), (.identifier, "a"), (.assign, "="), (.integer, "1"), (.semicolon, ";")]
      _ _ :=
    .token _ (show Blanks [] by decide) (show Blanks [] by decide) (by decide) <|
    .token _ (show Blanks [' '] by decide) (show Blanks [' ', ' '] by decide) (by decide) <|
    .token _ (show Blanks [] by decide) (show Blanks [' '] by decide) (by decide) <|
    .token _ (show Blanks [] by decide) (show Blanks ['\t'] by decide) (by decide) <|
    .token _ (show Blanks [] by decide) (show Blanks [' '] by decide) (by decide) <|
    .done (show Blanks [] by decide) (show Blanks [' '] by decide)
  have hrelaid : denseSample.Relaid airySample :=
    ⟨[], ['\n'], _, _, by decide, by decide, by decide +kernel, by decide +kernel,
      htokens ▸ hlaid⟩
  have hcalls := hrelaid.evaluate_relaid.2 initial globalFrame {} 0
  exact ⟨hrelaid, hcalls.1, (hcalls.2 globalFrame).2⟩

end Ember

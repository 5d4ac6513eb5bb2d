import Mathlib.Data.List.Forall2
import Ember.Node.Print

/-!
# Trees that differ in their spans

`Node.mapSpan k` puts `k span` in the place of every span of a tree. Two trees are alike up
to `k` when that makes them equal: with `id` they are equal, and with `nowhere` they are the
same tree read from different places. Nothing but a span tells alike trees apart; they are
printed alike (`Node.Alike.printOr`).
-/

namespace Ember

/-- Forgets a span. -/
def nowhere : Option Span → Option Span :=
  fun _ => none

/-- The name with another span. -/
def Name.mapSpan (k : Option Span → Option Span) (n : Name) : Name :=
  { n with span := k n.span }

theorem Name.mapSpan_id : Name.mapSpan id = id := rfl

namespace Node

section

variable (k : Option Span → Option Span)

mutual

/-- The tree with every span replaced. -/
def mapSpan : Node → Node
  | missing => missing
  | identifier s name => identifier (k s) name
  | integer s value => integer (k s) value
  | unary s operator operand => unary (k s) operator operand.mapSpan
  | binary s left operator right => binary (k s) left.mapSpan operator right.mapSpan
  | conditional s condition consequence alternative =>
    conditional (k s) condition.mapSpan consequence.mapSpan alternative.mapSpan
  | function s parameters body => function (k s) (parameters.map (Name.mapSpan k)) body.mapSpan
  | call s callee arguments => call (k s) callee.mapSpan (mapSpanAll arguments)
  | declaration s name value => declaration (k s) (name.mapSpan k) value.mapSpan
  | assignment s name value => assignment (k s) (name.mapSpan k) value.mapSpan
  | expression s e => expression (k s) e.mapSpan
  | block s statements => block (k s) (mapSpanAll statements)
  | whileLoop s condition body => whileLoop (k s) condition.mapSpan body.mapSpan
  | forLoop s init condition post body =>
    forLoop (k s) init.mapSpan condition.mapSpan post.mapSpan body.mapSpan
  | program s statements => program (k s) (mapSpanAll statements)

/-- The trees of a list with every span replaced. -/
def mapSpanAll : List Node → List Node
  | [] => []
  | n :: ns => n.mapSpan :: mapSpanAll ns

end

end

variable {k : Option Span → Option Span}

/-- Spans of trees are mapped tree by tree. -/
@[simp]
theorem mapSpanAll_eq_map (ns : List Node) : mapSpanAll k ns = ns.map (mapSpan k) := by
  induction ns with
  | nil => rfl
  | cons n ns ih => rw [mapSpanAll, ih, List.map_cons]

mutual

/-- A tree whose spans are mapped to themselves is the same tree. -/
theorem mapSpan_id : ∀ n : Node, n.mapSpan id = n
  | missing => rfl
  | identifier .. => rfl
  | integer .. => rfl
  | unary _ _ a => by rw [mapSpan, mapSpan_id a]; rfl
  | binary _ a _ b => by rw [mapSpan, mapSpan_id a, mapSpan_id b]; rfl
  | conditional _ c a b => by rw [mapSpan, mapSpan_id c, mapSpan_id a, mapSpan_id b]; rfl
  | function _ ps b => by rw [mapSpan, mapSpan_id b, Name.mapSpan_id, List.map_id]; rfl
  | call _ c as => by rw [mapSpan, mapSpan_id c, mapSpanAll_id as]; rfl
  | declaration _ _ v => by rw [mapSpan, mapSpan_id v]; rfl
  | assignment _ _ v => by rw [mapSpan, mapSpan_id v]; rfl
  | expression _ e => by rw [mapSpan, mapSpan_id e]; rfl
  | block _ ns => by rw [mapSpan, mapSpanAll_id ns]; rfl
  | whileLoop _ c b => by rw [mapSpan, mapSpan_id c, mapSpan_id b]; rfl
  | forLoop _ i c p b => by
    rw [mapSpan, mapSpan_id i, mapSpan_id c, mapSpan_id p, mapSpan_id b]; rfl
  | program _ ns => by rw [mapSpan, mapSpanAll_id ns]; rfl

theorem mapSpanAll_id : ∀ ns : List Node, mapSpanAll id ns = ns
  | [] => rfl
  | n :: ns => by rw [mapSpanAll, mapSpan_id n, mapSpanAll_id ns]

end

mutual

/-- Mapping all spans to none forgets them. -/
theorem mapSpan_nowhere : ∀ n : Node, n.mapSpan nowhere = n.erase
  | missing => rfl
  | identifier .. => rfl
  | integer .. => rfl
  | unary _ _ a => by rw [mapSpan, mapSpan_nowhere a, erase, nowhere]
  | binary _ a _ b => by rw [mapSpan, mapSpan_nowhere a, mapSpan_nowhere b, erase, nowhere]
  | conditional _ c a b => by
    rw [mapSpan, mapSpan_nowhere c, mapSpan_nowhere a, mapSpan_nowhere b, erase, nowhere]
  | function _ ps b => by rw [mapSpan, mapSpan_nowhere b, erase]; rfl
  | call _ c as => by rw [mapSpan, mapSpan_nowhere c, mapSpanAll_nowhere as, erase, nowhere]
  | declaration _ _ v => by rw [mapSpan, mapSpan_nowhere v, erase]; rfl
  | assignment _ _ v => by rw [mapSpan, mapSpan_nowhere v, erase]; rfl
  | expression _ e => by rw [mapSpan, mapSpan_nowhere e, erase, nowhere]
  | block _ ns => by rw [mapSpan, mapSpanAll_nowhere ns, erase, nowhere]
  | whileLoop _ c b => by rw [mapSpan, mapSpan_nowhere c, mapSpan_nowhere b, erase, nowhere]
  | forLoop _ i c p b => by
    rw [mapSpan, mapSpan_nowhere i, mapSpan_nowhere c, mapSpan_nowhere p, mapSpan_nowhere b,
      erase, nowhere]
  | program _ ns => by rw [mapSpan, mapSpanAll_nowhere ns, erase, nowhere]

theorem mapSpanAll_nowhere : ∀ ns : List Node, mapSpanAll nowhere ns = eraseAll ns
  | [] => rfl
  | n :: ns => by rw [mapSpanAll, mapSpan_nowhere n, mapSpanAll_nowhere ns, eraseAll]

end

mutual

/-- Forgetting spans takes away what was put in their place. -/
theorem erase_mapSpan : ∀ n : Node, (n.mapSpan k).erase = n.erase
  | missing => rfl
  | identifier .. => rfl
  | integer .. => rfl
  | unary _ _ a => by simp only [mapSpan, erase, erase_mapSpan a]
  | binary _ a _ b => by simp only [mapSpan, erase, erase_mapSpan a, erase_mapSpan b]
  | conditional _ c a b => by
    simp only [mapSpan, erase, erase_mapSpan c, erase_mapSpan a, erase_mapSpan b]
  | function _ ps b => by
    simp only [mapSpan, erase, erase_mapSpan b, List.map_map, Function.comp_def, Name.mapSpan]
  | call _ c as => by simp only [mapSpan, erase, erase_mapSpan c, eraseAll_mapSpanAll as]
  | declaration _ _ v => by simp only [mapSpan, erase, erase_mapSpan v, Name.mapSpan]
  | assignment _ _ v => by simp only [mapSpan, erase, erase_mapSpan v, Name.mapSpan]
  | expression _ e => by simp only [mapSpan, erase, erase_mapSpan e]
  | block _ ns => by simp only [mapSpan, erase, eraseAll_mapSpanAll ns]
  | whileLoop _ c b => by simp only [mapSpan, erase, erase_mapSpan c, erase_mapSpan b]
  | forLoop _ i c p b => by
    simp only [mapSpan, erase, erase_mapSpan i, erase_mapSpan c, erase_mapSpan p, erase_mapSpan b]
  | program _ ns => by simp only [mapSpan, erase, eraseAll_mapSpanAll ns]

theorem eraseAll_mapSpanAll : ∀ ns : List Node, eraseAll (mapSpanAll k ns) = eraseAll ns
  | [] => rfl
  | n :: ns => by rw [mapSpanAll, eraseAll, erase_mapSpan n, eraseAll_mapSpanAll ns, eraseAll]

end

/-- Whether a tree is missing has nothing to do with spans. -/
theorem isMissing_mapSpan (n : Node) : (n.mapSpan k).isMissing = n.isMissing := by
  cases n <;> rfl

theorem kindName_mapSpan (n : Node) : (n.mapSpan k).kindName = n.kindName := by
  cases n <;> rfl

mutual

/-- Trees are printed without regard to their spans. -/
theorem printOr_mapSpan (gap : String) : ∀ n : Node, (n.mapSpan k).printOr gap = n.printOr gap
  | missing => rfl
  | identifier .. => rfl
  | integer .. => rfl
  | unary _ _ a => by simp only [mapSpan, printOr, printOr_mapSpan _ a]
  | binary _ a _ b => by simp only [mapSpan, printOr, printOr_mapSpan _ a, printOr_mapSpan _ b]
  | conditional _ c a b => by
    have hc := printOr_mapSpan "" c
    have ha := printOr_mapSpan absent a
    have hb := printOr_mapSpan absent b
    cases b <;> simp_all only [mapSpan, printOr]
  | function _ ps b => by
    have hps : (ps.map (Name.mapSpan k)).map Name.text = ps.map Name.text := by
      rw [List.map_map]
      rfl
    simp only [mapSpan, printOr, printOr_mapSpan _ b, hps]
  | call _ c as => by simp only [mapSpan, printOr, printOr_mapSpan _ c, printAllOr_mapSpan _ as]
  | declaration _ _ v => by simp only [mapSpan, printOr, printOr_mapSpan _ v, Name.mapSpan]
  | assignment _ _ v => by simp only [mapSpan, printOr, printOr_mapSpan _ v, Name.mapSpan]
  | expression _ e => by simp only [mapSpan, printOr, printOr_mapSpan _ e]
  | block _ [] => rfl
  | block _ (n :: ns) => by
    have h := printAllOr_mapSpan absent (n :: ns)
    simp only [mapSpanAll] at h
    simp only [mapSpan, mapSpanAll, printOr, h]
  | whileLoop _ c b => by simp only [mapSpan, printOr, printOr_mapSpan _ c, printOr_mapSpan _ b]
  | forLoop _ i c p b => by
    simp only [mapSpan, printOr, printOr_mapSpan _ i, printOr_mapSpan _ c, printOr_mapSpan _ p,
      printOr_mapSpan _ b]
  | program _ ns => by simp only [mapSpan, printOr, printAllOr_mapSpan _ ns]

theorem printAllOr_mapSpan (gap : String) : ∀ ns : List Node,
    printAllOr gap (mapSpanAll k ns) = printAllOr gap ns
  | [] => rfl
  | n :: ns => by simp only [mapSpanAll, printAllOr, printOr_mapSpan _ n, printAllOr_mapSpan _ ns]

end

/-! ## Alike trees -/

/-- The trees are equal once their spans are replaced. -/
def Alike (k : Option Span → Option Span) (n n' : Node) : Prop :=
  n.mapSpan k = n'.mapSpan k

variable {n n' : Node}

/-- Trees alike with their spans are the same tree. -/
theorem alike_id : Alike id n n' ↔ n = n' := by
  rw [Alike, mapSpan_id, mapSpan_id]

/-- Lists of trees are the same after mapping if the trees are alike one by one. -/
theorem map_mapSpan_eq_iff {ns ns' : List Node} :
    ns.map (mapSpan k) = ns'.map (mapSpan k) ↔ List.Forall₂ (Alike k) ns ns' := by
  rw [← List.forall₂_eq_eq_eq, List.forall₂_map_left_iff, List.forall₂_map_right_iff]
  rfl

/-- Trees are alike without their spans if they are the same up to spans. -/
theorem forall₂_alike_nowhere {ns ns' : List Node} :
    List.Forall₂ (Alike nowhere) ns ns' ↔ ns.map erase = ns'.map erase := by
  have herase : mapSpan nowhere = erase := funext mapSpan_nowhere
  rw [← map_mapSpan_eq_iff, herase]

/-- The roots of alike trees are of one kind, with alike trees in the same places. -/
inductive Roots (k : Option Span → Option Span) : Node → Node → Prop
  | missing : Roots k .missing .missing
  | identifier {s s' : Option Span} (name : String) : k s = k s' →
      Roots k (.identifier s name) (.identifier s' name)
  | integer {s s' : Option Span} (value : Int) : k s = k s' →
      Roots k (.integer s value) (.integer s' value)
  | unary {s s' : Option Span} (operator : String) {a a' : Node} : k s = k s' → Alike k a a' →
      Roots k (.unary s operator a) (.unary s' operator a')
  | binary {s s' : Option Span} (operator : String) {a a' b b' : Node} : k s = k s' →
      Alike k a a' → Alike k b b' → Roots k (.binary s a operator b) (.binary s' a' operator b')
  | conditional {s s' : Option Span} {c c' a a' b b' : Node} : k s = k s' → Alike k c c' →
      Alike k a a' → Alike k b b' → Roots k (.conditional s c a b) (.conditional s' c' a' b')
  | function {s s' : Option Span} {ps ps' : List Name} {b b' : Node} : k s = k s' →
      ps.map (Name.mapSpan k) = ps'.map (Name.mapSpan k) → Alike k b b' →
      Roots k (.function s ps b) (.function s' ps' b')
  | call {s s' : Option Span} {c c' : Node} {as as' : List Node} : k s = k s' → Alike k c c' →
      List.Forall₂ (Alike k) as as' → Roots k (.call s c as) (.call s' c' as')
  | declaration {s s' : Option Span} {x x' : Name} {v v' : Node} : k s = k s' →
      x.mapSpan k = x'.mapSpan k → Alike k v v' →
      Roots k (.declaration s x v) (.declaration s' x' v')
  | assignment {s s' : Option Span} {x x' : Name} {v v' : Node} : k s = k s' →
      x.mapSpan k = x'.mapSpan k → Alike k v v' →
      Roots k (.assignment s x v) (.assignment s' x' v')
  | expression {s s' : Option Span} {e e' : Node} : k s = k s' → Alike k e e' →
      Roots k (.expression s e) (.expression s' e')
  | block {s s' : Option Span} {ns ns' : List Node} : k s = k s' →
      List.Forall₂ (Alike k) ns ns' → Roots k (.block s ns) (.block s' ns')
  | whileLoop {s s' : Option Span} {c c' b b' : Node} : k s = k s' → Alike k c c' →
      Alike k b b' → Roots k (.whileLoop s c b) (.whileLoop s' c' b')
  | forLoop {s s' : Option Span} {i i' c c' p p' b b' : Node} : k s = k s' → Alike k i i' →
      Alike k c c' → Alike k p p' → Alike k b b' →
      Roots k (.forLoop s i c p b) (.forLoop s' i' c' p' b')
  | program {s s' : Option Span} {ns ns' : List Node} : k s = k s' →
      List.Forall₂ (Alike k) ns ns' → Roots k (.program s ns) (.program s' ns')

/-- Names that are alike have the same text. -/
theorem text_of_mapSpan {x x' : Name} (h : x.mapSpan k = x'.mapSpan k) : x.text = x'.text := by
  change (x.mapSpan k).text = (x'.mapSpan k).text
  rw [h]

theorem texts_of_mapSpan {ps ps' : List Name}
    (h : ps.map (Name.mapSpan k) = ps'.map (Name.mapSpan k)) :
    ps.map Name.text = ps'.map Name.text := by
  have htexts := congrArg (List.map Name.text) h
  rwa [List.map_map, List.map_map] at htexts

/-- Trees that are alike have like roots with parts that are alike. -/
theorem Alike.roots (h : Alike k n n') : Roots k n n' := by
  unfold Alike at h
  cases n with
  | missing => cases n' <;> cases h; exact .missing
  | identifier s name =>
    cases n' <;> simp only [mapSpan, reduceCtorEq, identifier.injEq] at h
    obtain ⟨hs, rfl⟩ := h
    exact .identifier name hs
  | integer s value =>
    cases n' <;> simp only [mapSpan, reduceCtorEq, integer.injEq] at h
    obtain ⟨hs, rfl⟩ := h
    exact .integer value hs
  | unary s operator a =>
    cases n' <;> simp only [mapSpan, reduceCtorEq, unary.injEq] at h
    obtain ⟨hs, rfl, ha⟩ := h
    exact .unary operator hs ha
  | binary s a operator b =>
    cases n' <;> simp only [mapSpan, reduceCtorEq, binary.injEq] at h
    obtain ⟨hs, ha, rfl, hb⟩ := h
    exact .binary operator hs ha hb
  | conditional s c a b =>
    cases n' <;> simp only [mapSpan, reduceCtorEq, conditional.injEq] at h
    exact .conditional h.1 h.2.1 h.2.2.1 h.2.2.2
  | function s ps b =>
    cases n' <;> simp only [mapSpan, reduceCtorEq, function.injEq] at h
    exact .function h.1 h.2.1 h.2.2
  | call s c as =>
    cases n' <;> simp only [mapSpan, mapSpanAll_eq_map, reduceCtorEq, call.injEq] at h
    exact .call h.1 h.2.1 (map_mapSpan_eq_iff.1 h.2.2)
  | declaration s x v =>
    cases n' <;> simp only [mapSpan, reduceCtorEq, declaration.injEq] at h
    exact .declaration h.1 h.2.1 h.2.2
  | assignment s x v =>
    cases n' <;> simp only [mapSpan, reduceCtorEq, assignment.injEq] at h
    exact .assignment h.1 h.2.1 h.2.2
  | expression s e =>
    cases n' <;> simp only [mapSpan, reduceCtorEq, expression.injEq] at h
    exact .expression h.1 h.2
  | block s ns =>
    cases n' <;> simp only [mapSpan, mapSpanAll_eq_map, reduceCtorEq, block.injEq] at h
    exact .block h.1 (map_mapSpan_eq_iff.1 h.2)
  | whileLoop s c b =>
    cases n' <;> simp only [mapSpan, reduceCtorEq, whileLoop.injEq] at h
    exact .whileLoop h.1 h.2.1 h.2.2
  | forLoop s i c p b =>
    cases n' <;> simp only [mapSpan, reduceCtorEq, forLoop.injEq] at h
    exact .forLoop h.1 h.2.1 h.2.2.1 h.2.2.2.1 h.2.2.2.2
  | program s ns =>
    cases n' <;> simp only [mapSpan, mapSpanAll_eq_map, reduceCtorEq, program.injEq] at h
    exact .program h.1 (map_mapSpan_eq_iff.1 h.2)

/-- Like roots with parts that are alike make trees alike. -/
theorem Roots.alike (h : Roots k n n') : Alike k n n' := by
  unfold Alike
  cases h with
  | missing => rfl
  | identifier name hs => rw [mapSpan, mapSpan, hs]
  | integer value hs => rw [mapSpan, mapSpan, hs]
  | unary operator hs ha => rw [mapSpan, mapSpan, hs, ha]
  | binary operator hs ha hb => rw [mapSpan, mapSpan, hs, ha, hb]
  | conditional hs hc ha hb => rw [mapSpan, mapSpan, hs, hc, ha, hb]
  | function hs hps hb => rw [mapSpan, mapSpan, hs, hps, hb]
  | call hs hc has =>
    rw [mapSpan, mapSpan, mapSpanAll_eq_map, mapSpanAll_eq_map, hs, hc, map_mapSpan_eq_iff.2 has]
  | declaration hs hx hv => rw [mapSpan, mapSpan, hs, hx, hv]
  | assignment hs hx hv => rw [mapSpan, mapSpan, hs, hx, hv]
  | expression hs he => rw [mapSpan, mapSpan, hs, he]
  | block hs hns =>
    rw [mapSpan, mapSpan, mapSpanAll_eq_map, mapSpanAll_eq_map, hs, map_mapSpan_eq_iff.2 hns]
  | whileLoop hs hc hb => rw [mapSpan, mapSpan, hs, hc, hb]
  | forLoop hs hi hc hp hb => rw [mapSpan, mapSpan, hs, hi, hc, hp, hb]
  | program hs hns =>
    rw [mapSpan, mapSpan, mapSpanAll_eq_map, mapSpanAll_eq_map, hs, map_mapSpan_eq_iff.2 hns]

namespace Alike

/-- Alike trees are equal once their spans are forgotten. -/
theorem erase_eq (h : Alike k n n') : n.erase = n'.erase := by
  rw [← erase_mapSpan (k := k), h, erase_mapSpan]

/-- Trees that are alike are printed the same. -/
theorem printOr (h : Alike k n n') (gap : String) : n.printOr gap = n'.printOr gap := by
  rw [← printOr_mapSpan (k := k), h, printOr_mapSpan]

theorem isMissing (h : Alike k n n') : n.isMissing = n'.isMissing := by
  rw [← isMissing_mapSpan (k := k), h, isMissing_mapSpan]

theorem kindName (h : Alike k n n') : n.kindName = n'.kindName := by
  rw [← kindName_mapSpan (k := k), h, kindName_mapSpan]

/-- Trees that are alike are blocks together, of statements that are alike. -/
theorem statements? (h : Alike k n n') :
    Option.Rel (List.Forall₂ (Alike k)) n.statements? n'.statements? := by
  cases h.roots with
  | block _ hns => exact .some hns
  | program _ hns => exact .some hns
  | _ => exact .none

end Alike

end Node

end Ember

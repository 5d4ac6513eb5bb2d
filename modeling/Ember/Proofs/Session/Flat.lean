import Ember.Proofs.Eval.Assigned
import Ember.Proofs.Eval.Bounds

/-!
# Programs without functions

Without functions nothing tells a cell from a binding: a program comes to what `Flat.run` comes
to, and binds the same names to the same values in the same order. In `Flat.run` a declaration
and an assignment are one. So whether a name is declared or assigned does not matter either
(`cells_invisible`).
-/

namespace Ember

/-- The diagnostic with its span replaced. -/
def Diagnostic.mapSpan (k : Option Span → Option Span) (d : Diagnostic) : Diagnostic :=
  { d with span := k d.span }

/-- The outcome with the spans in what is said about it replaced. -/
def Outcome.mapSpan (k : Option Span → Option Span) : Outcome → Outcome
  | .rejected ds => .rejected (ds.map (Diagnostic.mapSpan k))
  | .failed cause d => .failed cause (d.mapSpan k)
  | .finished value => .finished value

open Run Heap

variable {p p' : Program} {rounds : Nat}

/-- The program was given up because it nests deeper than the limit allows. -/
def TooDeep (r : Except Fault Outcome) : Prop :=
  ∃ d, r = .ok (.failed .tooDeep d)

/-- A program with enough levels does what it does without cells. -/
theorem program_flat (rounds depth : Nat) (span : Option Span) {ns : List Node}
    (hfree : Node.functionlessAll ns) (hdepth : 2 * Node.heightAll ns + 2 ≤ depth) (f : FrameId) :
    Flattens f SamePlain (evalNode rounds depth (.program span ns) f)
      (Flat.statements rounds none ns) := by
  have hstatement : ∀ n : Node, n.Within (Node.heightAll ns + 1) →
      Flattens f SamePlain (evalTask rounds depth (.statement n) f) (Flat.statement rounds n) := by
    intro n hn
    have hlt := hn.height_lt
    exact (evalTask_flat rounds depth f n hn.functionless (by omega)).2
  have hns := Node.forall_within hfree (Nat.lt_succ_self (Node.heightAll ns))
  exact flat_statements hstatement samePlain_none hns

/-- Against an empty frame a program does what it does without cells, or it is given up because
it has fewer levels than twice its height. -/
theorem Heap.run_flat (hfree : Node.functionlessAll p.statements) {limit : Int}
    (hlimit : limit ≤ maxDepthLimit) (rounds : Nat) :
    (TooDeep (initial.run globalFrame p limit rounds).1 ∧
        limit < 2 * Node.heightAll p.statements + 2) ∨
      (initial.run globalFrame p limit rounds).1 = (Flat.run rounds p).1 ∧
        (initial.run globalFrame p limit rounds).2.bindings globalFrame =
          (Flat.run rounds p).2.entries := by
  let given := (max 1000 limit).toNat
  let needed := 2 * Node.heightAll p.statements + 2
  have hflat : ∀ depth, needed ≤ depth → Reflects globalFrame SamePlain
      (evalNode rounds depth p.toNode globalFrame initial)
      (Flat.statements rounds none p.statements {}) := fun depth hdepth =>
    program_flat rounds depth p.span hfree hdepth globalFrame initial {} .initial
  -- with less levels than needed it is given up, or it does what it does with enough of them
  have hgiven : ((∃ g, evalNode rounds given p.toNode globalFrame initial = .error .tooDeep g) ∧
        limit < needed) ∨
      Reflects globalFrame SamePlain (evalNode rounds given p.toNode globalFrame initial)
        (Flat.statements rounds none p.statements {}) := by
    by_cases henough : needed ≤ given
    · exact .inr (hflat given henough)
    · have hextends := program_extends (.inl (Eq.refl rounds))
        (.inr ⟨(by omega : given ≤ needed), rfl⟩) p.span p.statements globalFrame initial
      rcases hextends with hdeep | hsame
      · exact .inl ⟨hdeep, by omega⟩
      · refine .inr ?_
        rw [Program.toNode, ← hsame]
        exact hflat needed (Nat.le_refl _)
  unfold run Flat.run Flat.conclude
  rw [depthBudget_eq, if_neg (Int.not_lt.2 hlimit)]
  dsimp only
  rcases hgiven with ⟨⟨g, hdeep⟩, hlt⟩ | hreflects
  · rw [show evalNode rounds (max 1000 limit).toNat p.toNode globalFrame initial = _ from hdeep]
    exact .inl ⟨⟨_, rfl⟩, hlt⟩
  · refine .inr ?_
    change Reflects _ _ (evalNode rounds (max 1000 limit).toNat p.toNode globalFrame initial) _
      at hreflects
    generalize evalNode rounds (max 1000 limit).toNat p.toNode globalFrame initial = r at hreflects
    generalize Flat.statements rounds none p.statements {} = r' at hreflects
    cases hreflects with
    | ok hv hm =>
      obtain ⟨rfl, -⟩ := hv
      exact ⟨rfl, hm.bindings⟩
    | error stop hm => cases stop <;> exact ⟨rfl, hm.bindings⟩

/-- What is answered follows the spans. -/
theorem Flat.conclude_mapResult (k : Option Span → Option Span) (span : Option Span)
    (r : EStateM.Result EvalStop Bindings (Option Value)) :
    conclude (k span) (mapResult k r) =
      ((conclude span r).1.map (Outcome.mapSpan k), (conclude span r).2) := by
  cases r with
  | ok value b => rfl
  | error stop b => cases stop <;> rfl

/-- Programs that differ in spans and in what is declared and what is assigned do the same without
cells, up to the spans. -/
theorem Flat.run_assigned {k : Option Span → Option Span}
    (hwhole : ∀ n ∈ p.statements, Whole .statement n)
    (hwhole' : ∀ n ∈ p'.statements, Whole .statement n)
    (halike : p.toNode.assigned k = p'.toNode.assigned k) (rounds : Nat) :
    (Flat.run rounds p).1.map (Outcome.mapSpan k) = (Flat.run rounds p').1.map (Outcome.mapSpan k) ∧
      (Flat.run rounds p).2 = (Flat.run rounds p').2 := by
  simp only [Program.toNode, Node.assigned, Node.assignedAll_eq_map, Node.program.injEq] at halike
  obtain ⟨hspan, hstatements⟩ := halike
  have hresult : ∀ q : Program, (∀ n ∈ q.statements, Whole .statement n) →
      mapResult k (statements rounds none q.statements {}) =
        statements rounds none (q.statements.map (Node.assigned k)) {} := fun q hq => by
    rw [flat_statements_assigned k fun n hn => (hq n hn).flat_assigned k, mapSpan]
  refine Prod.mk.inj ?_
  calc ((run rounds p).1.map (Outcome.mapSpan k), (run rounds p).2)
      = conclude (k p.span) (mapResult k (statements rounds none p.statements {})) :=
        (conclude_mapResult ..).symm
    _ = conclude (k p'.span) (mapResult k (statements rounds none p'.statements {})) := by
        rw [hresult p hwhole, hresult p' hwhole', hspan, hstatements]
    _ = ((run rounds p').1.map (Outcome.mapSpan k), (run rounds p').2) := conclude_mapResult ..

/-- **Without functions cells are invisible.** A program without functions is evaluated against an
empty frame. However many rounds its loops may make, unless it is given up because it has fewer
levels than twice its height, it does what `Flat.run` does: it comes to the same fault, the same
failure at the same place or the same value, and the frame binds the same names in the same order
to the same values, in whatever way it ends.

So it does not matter what is declared and what is assigned. Two such programs that are whole, and
the same up to spans once all their declarations are turned into assignments, come to the same up
to those spans, and bind the same names in the same order to the same values, unless one of them
is given up for its nesting. -/
theorem cells_invisible (p : Program) (hfree : Node.functionlessAll p.statements) (limit : Int)
    (hlimit : limit ≤ maxDepthLimit) :
    (∀ rounds,
      let r := initial.run globalFrame p limit rounds
      TooDeep r.1 ∧ limit < 2 * Node.heightAll p.statements + 2 ∨
        r.1 = (Flat.run rounds p).1 ∧
          r.2.bindings globalFrame = (Flat.run rounds p).2.entries) ∧
    ∀ (k : Option Span → Option Span) (p' : Program), Node.functionlessAll p'.statements →
      (∀ n ∈ p.statements, Whole .statement n) → (∀ n ∈ p'.statements, Whole .statement n) →
      p.toNode.assigned k = p'.toNode.assigned k → ∀ limit' ≤ maxDepthLimit, ∀ rounds,
        let r := initial.run globalFrame p limit rounds
        let r' := initial.run globalFrame p' limit' rounds
        TooDeep r.1 ∨ TooDeep r'.1 ∨
          r.1.map (Outcome.mapSpan k) = r'.1.map (Outcome.mapSpan k) ∧
            r.2.bindings globalFrame = r'.2.bindings globalFrame := by
  refine ⟨run_flat hfree hlimit, fun k p' hfree' hwhole hwhole' halike limit' hlimit' rounds => ?_⟩
  obtain ⟨houtcome, hbindings⟩ := Flat.run_assigned hwhole hwhole' halike rounds
  rcases run_flat hfree hlimit rounds with ⟨hdeep, -⟩ | ⟨hr, hb⟩
  · exact .inl hdeep
  rcases run_flat hfree' hlimit' rounds with ⟨hdeep, -⟩ | ⟨hr', hb'⟩
  · exact .inr (.inl hdeep)
  refine .inr (.inr ⟨?_, ?_⟩)
  · rw [hr, hr', houtcome]
  · rw [hb, hb', hbindings]

/-- A loop that triples `x` twice, and then a name that is not bound. What is declared is up to
`bind`. -/
def sampleTripling (bind : Name → Node → Node) : Program :=
  let x : Node := .identifier none "x"
  let i : Node := .identifier none "i"
  { span := none
    statements :=
      [bind ⟨"x", none⟩ (.integer none 1),
        .forLoop none (.assignment none ⟨"i", none⟩ (.integer none 0))
          (.binary none i "<" (.integer none 2))
          (bind ⟨"i", none⟩ (.binary none i "+" (.integer none 1)))
          (.block none [bind ⟨"x", none⟩ (.binary none x "*" (.integer none 3))]),
        .expression none (.identifier none "y")] }

theorem cells_invisible_tripling :
    let p := sampleTripling (.declaration none)
    let p' := sampleTripling (.assignment none)
    let r := initial.run globalFrame p 10000 3
    let r' := initial.run globalFrame p' 10000 3
    r.1 = .ok (.failed (.undefined "y") ((RuntimeCause.undefined "y").diagnostic none)) ∧
      r.2.bindings globalFrame = [("x", some (.integer 9)), ("i", some (.integer 2))] ∧
      r.1.map (Outcome.mapSpan id) = r'.1.map (Outcome.mapSpan id) ∧
      r.2.bindings globalFrame = r'.2.bindings globalFrame := by
  intro p p' r r'
  have hwhole : ∀ bind, (∀ x v, Whole .expression v → Whole .clause (bind x v)) →
      ∀ n ∈ (sampleTripling bind).statements, Whole .statement n := by
    intro bind hbind n hn
    have hsum : Whole .expression
        (.binary none (.identifier none "i") "+" (.integer none 1)) :=
      .binary (by decide) .identifier .integer
    have hproduct : Whole .expression
        (.binary none (.identifier none "x") "*" (.integer none 3)) :=
      .binary (by decide) .identifier .integer
    have hbody : Whole .block (.block none
        [bind ⟨"x", none⟩ (.binary none (.identifier none "x") "*" (.integer none 3))]) :=
      .block (List.forall_mem_singleton.2 (.clause (hbind _ _ hproduct)))
    rcases List.mem_cons.1 hn with rfl | hn
    · exact .clause (hbind _ _ .integer)
    rcases List.mem_cons.1 hn with rfl | hn
    · exact .forLoop (.assignment .integer) (.binary (by decide) .identifier .integer)
        (hbind _ _ hsum) hbody
    · obtain rfl := List.mem_singleton.1 hn
      exact .expressionStatement .identifier
  have hflat : Flat.run 3 p =
      (.ok (.failed (.undefined "y") ((RuntimeCause.undefined "y").diagnostic none)),
        ⟨[("x", some (.integer 9)), ("i", some (.integer 2))]⟩) := rfl
  obtain ⟨hsame, hrebound⟩ := cells_invisible p (by decide) 10000 (by decide)
  obtain ⟨hr, hb⟩ := (hsame 3).resolve_left fun hdeep => absurd hdeep.2 (by decide)
  obtain ⟨hr', -⟩ := ((cells_invisible p' (by decide) 10000 (by decide)).1 3).resolve_left
    fun hdeep => absurd hdeep.2 (by decide)
  rw [hflat] at hr hb
  have hnot : ¬ TooDeep r.1 := by
    rintro ⟨d, hd⟩
    cases hr.symm.trans hd
  have hnot' : ¬ TooDeep r'.1 := by
    rintro ⟨d, hd⟩
    cases (hr'.symm.trans hd : Except.ok _ = _)
  obtain ⟨houtcome, hbindings⟩ := ((hrebound id p' (by decide)
    (hwhole _ fun _ _ hv => .declaration hv) (hwhole _ fun _ _ hv => .assignment hv) rfl 10000
    (by decide) 3).resolve_left hnot).resolve_left hnot'
  exact ⟨hr, hb, houtcome, hbindings⟩

end Ember

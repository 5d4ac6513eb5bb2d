import Ember.Proofs.Grammar.Leaves
import Ember.Proofs.Grammar.Printed

/-!
# What is read back is separate

The converse of `Prints.returns`: when a printed part is read as what it was, no two
neighbours in it are printed as one (`Prints.reread`).

Tokens that are taken for more of an expression make it larger on its left side: the tree
that was printed is then the callee or the left operand of what is read, or stands even
further to the left. So trees are compared along their left sides (`Node.spine`), from the
first operand on. They clash when they differ already in a part that stands to the left of
both, and then no operator behind them makes them equal (`Clash`).
-/

namespace Ember

namespace Node

/-- The trees on the left side of a tree, from its first operand outwards, up to spans. -/
def spine : Node → List Node
  | binary span left operator right => left.spine ++ [(binary span left operator right).erase]
  | call span callee args => callee.spine ++ [(call span callee args).erase]
  | n => [n.erase]

/-- Trees that are the same up to spans have the same left side. -/
theorem spine_congr {n m : Node} (h : n.erase = m.erase) : n.spine = m.spine := by
  fun_induction spine n generalizing m with
  | case1 span left operator right ih =>
    cases m <;> simp only [erase, reduceCtorEq, binary.injEq] at h
    obtain ⟨-, hl, rfl, hr⟩ := h
    simp only [spine, erase, ih hl, hl, hr]
  | case2 span callee args ih =>
    cases m <;> simp only [erase, reduceCtorEq, call.injEq] at h
    obtain ⟨-, hc, ha⟩ := h
    simp only [spine, erase, ih hc, hc, ha]
  | case3 n hb hc =>
    have hs : m.spine = [m.erase] := by
      cases m with
      | binary => cases n <;> first | exact absurd rfl (hb _ _ _ _) | simp [erase] at h
      | call => cases n <;> first | exact absurd rfl (hc _ _ _) | simp [erase] at h
      | _ => rfl
    rw [hs, h]

end Node

/-- The trees differ on their left sides, before one of them ends. -/
def Clash (n m : Node) : Prop :=
  ¬ n.spine <+: m.spine ∧ ¬ m.spine <+: n.spine

variable {n m e f : Node}

/-- Trees that are the same up to spans do not clash. -/
theorem not_clash_of_erase (h : n.erase = m.erase) : ¬ Clash n m :=
  fun hc => hc.1 (Node.spine_congr h ▸ List.prefix_rfl)

/-- What is built on the left of two trees that clash clashes too. -/
theorem Clash.left (h : Clash n e) (hm : n.spine <+: m.spine) : Clash m e := by
  refine ⟨fun hme => h.1 (hm.trans hme), fun hem => ?_⟩
  rcases List.prefix_or_prefix_of_prefix hm hem with hne | hen
  · exact h.1 hne
  · exact h.2 hen

/-- What is built on the right of two trees that clash clashes too. -/
theorem Clash.right (h : Clash n e) (hf : e.spine <+: f.spine) : Clash n f := by
  refine ⟨fun hnf => ?_, fun hfn => h.2 (hf.trans hfn)⟩
  rcases List.prefix_or_prefix_of_prefix hnf hf with hne | hen
  · exact h.1 hne
  · exact h.2 hen

/-- Two trees on the same left side clash unless they are equal, up to spans. -/
theorem erase_of_not_clash {s : List Node} (hn : n.spine = s ++ [n.erase])
    (hm : m.spine = s ++ [m.erase]) (h : ¬ Clash n m) : n.erase = m.erase := by
  by_cases hp : n.spine <+: m.spine
  · rw [hn, hm] at hp
    simpa using hp
  · have hq : m.spine <+: n.spine := Classical.not_not.1 fun hq => h ⟨hp, hq⟩
    rw [hn, hm] at hq
    simpa using Eq.symm (by simpa using hq)

/-! ## Reading on from a tree -/

/-- Operators build on the tree to their left. -/
def Reading.Grows : Reading → Prop
  | .operators _ left n => left.spine <+: n.spine
  | _ => True

/-- What operators build has the tree before them on its left side. -/
theorem Reads.grows {r : Reading} {ts : List Token} {k : Kind} (h : Reads r ts k) : r.Grows := by
  induction h with
  | stop _ => exact List.prefix_rfl
  | infixed _ _ _ _ _ ih => exact (List.prefix_append ..).trans ih
  | call _ _ _ _ _ ih => exact (List.prefix_append ..).trans ih
  | _ => trivial

namespace Leaves

variable {k : Kind} {left : Node} {es : List Node} {above : Nat} {ts us vs : List Token}

theorem grows (h : Leaves k (.operators above left n) ts us) : left.spine <+: n.spine :=
  let ⟨_, _, h⟩ := h
  h.grows

/-- Operators behind a tree that is read in place of another one. -/
theorem not_clash (h : Leaves k (.operators above left n) ts us) (hn : ¬ Clash n e) :
    ¬ Clash left e :=
  fun hc => hn (hc.left h.grows)

/-- An argument and those behind it. -/
theorem arguments_cons (h : Leaves k (.expression lowest n) ts us)
    (hs : Leaves k (.moreArguments es) us vs) : Leaves k (.arguments (n :: es)) ts vs := by
  obtain ⟨xs, rfl, h⟩ := h
  obtain ⟨ys, rfl, hs⟩ := hs
  refine ⟨xs ++ ys, (List.append_assoc ..).symm, .arguments ?_ hs⟩
  rwa [firstKind_append] at h

/-- A binding is no other statement. -/
theorem binding_erase (h : Leaves k (.binding n) ts us) :
    (∃ name value, n.erase = .declaration none name value) ∨
      ∃ name value, n.erase = .assignment none name value := by
  obtain ⟨_, _, _, _, _, _, _, -, -, -, -, -, rfl⟩ | ⟨_, _, _, _, _, _, -, -, -, -, rfl⟩ :=
    h.binding
  · exact .inl ⟨_, _, rfl⟩
  · exact .inr ⟨_, _, rfl⟩

end Leaves

/-! ## Reading back -/

/-- How a printed part is read back, if it is read as what it was: all its tokens are
taken, no others are, and it is separate. An expression may go on behind its tokens. -/
def Part.Reread (ts : List Token) : Part → Prop
  | .expression least e => ∀ k above n vs us, above ≤ signStrength →
      Leaves k (.expression above n) (ts ++ vs) us → ¬ Clash n e →
      (Part.expression least e).Separate ∧
        ∃ e', e'.erase = e.erase ∧ Leaves k (.operators above e' n) vs us
  | .arguments es => ∀ k es' c vs us, c.kind = .rightParen →
      Leaves k (.arguments es') (ts ++ c :: vs) us → es'.map Node.erase = es.map Node.erase →
      (Part.arguments es).Separate ∧ us = vs
  | .block n => ∀ k n' vs us, Leaves k (.block n') (ts ++ vs) us → n'.erase = n.erase →
      (Part.block n).Separate ∧ us = vs
  | .clause n => ∀ k n' vs us, firstKind vs k = .semicolon ∨ firstKind vs k = .rightParen →
      Leaves k (.binding n') (ts ++ vs) us → n'.erase = n.erase →
      (Part.clause n).Separate ∧ us = vs
  | .statement n => ∀ k n' vs us, (firstKind vs k).opensStatement →
      Leaves k (.statement n') (ts ++ vs) us → n'.erase = n.erase →
      ((Part.statement n).Separate ∧ us = vs) ∧
        ∀ span e, n = .expression span e → firstKind vs k ≠ .leftParen
  | .statements ns => ∀ k ns' vs us, firstKind vs k = .rightBrace ∨ firstKind vs k = .endOfText →
      Leaves k (.statements ns') (ts ++ vs) us → ns'.map Node.erase = ns.map Node.erase →
      (Part.statements ns).Separate ∧ us = vs
  | .conditional _ => True

/-- An expression that is read back in front of a weak token. -/
theorem Part.Reread.closed {least : Nat} {ts : List Token} (h : (Part.expression least e).Reread ts)
    {k : Kind} {above : Nat} {vs us : List Token} (ha : above ≤ signStrength)
    (hl : Leaves k (.expression above n) (ts ++ vs) us) (hn : ¬ Clash n e)
    (hs : (firstKind vs k).strength ≤ above) :
    (Part.expression least e).Separate ∧ n.erase = e.erase ∧ us = vs := by
  obtain ⟨hsep, e', he, hr⟩ := h k above n vs us ha hl hn
  obtain ⟨rfl, rfl⟩ := hr.operators_stop hs
  exact ⟨hsep, he, rfl⟩

/-- A printed part between parentheses, in front of whatever follows. -/
theorem reread_grouped {o c : Token} {ts : List Token} {least above : Nat} {k : Kind}
    {vs us : List Token} (ho : o.kind = .leftParen)
    (hl : Leaves k (.expression above n) (o :: ts) us) (hn : ¬ Clash n e)
    (h : ∀ m xs, Leaves k (.expression lowest m) ts xs → ¬ Clash m e →
      (Part.expression least e).Separate ∧ m.erase = e.erase ∧ xs = c :: vs) :
    (Part.expression least e).Separate ∧
      ∃ e', e'.erase = e.erase ∧ Leaves k (.operators above e' n) vs us := by
  obtain ⟨m, xs, hm, hr⟩ := hl.expression
  have hoperand := hm.operand
  simp only [Leaves.Operand, ho] at hoperand
  obtain ⟨c', hc', hinner⟩ := hoperand
  obtain ⟨hsep, he, hxs⟩ := h m _ hinner (hr.not_clash hn)
  rw [(List.cons.inj hxs).2] at hr
  exact ⟨hsep, m, he, hr⟩

/-- What a printed conditional is read back as, up to what stands behind its first block. -/
theorem reread_conditional {i o c : Token} {ts us vs xs : List Token} {k : Kind}
    {span : Option Span} {condition consequence alternative left : Node}
    (hi : i.kind = .ifWord) (hl : Leaves k (.operand left) (i :: o :: (ts ++ c :: (us ++ vs))) xs)
    (hn : ¬ Clash left (.conditional span condition consequence alternative))
    (hc : c.kind = .rightParen) (h₁ : (Part.expression loosest condition).Reread ts)
    (h₂ : (Part.block consequence).Reread us) :
    (Part.expression loosest condition).Separate ∧ (Part.block consequence).Separate ∧
      left.erase = (Node.conditional span condition consequence alternative).erase ∧
      ∃ n, n.erase = alternative.erase ∧ Leaves.Alternative k n vs xs := by
  have hoperand := hl.operand
  simp only [Leaves.Operand, hi] at hoperand
  obtain ⟨_, _, c', vs', ws, zs, span', condition', consequence', alternative', hcons, -, -, hcond,
    hc', hblock, hrest, rfl⟩ := hoperand.conditional
  obtain ⟨rfl, rfl, rfl⟩ : _ ∧ _ ∧ ts ++ c :: (us ++ vs) = vs' := by
    simpa using hcons
  have he := erase_of_not_clash (s := []) rfl rfl hn
  have hparts := he
  simp only [Node.erase, Node.conditional.injEq, true_and] at hparts
  obtain ⟨he₁, he₂, he₃⟩ := hparts
  obtain ⟨hsep₁, -, hws⟩ := h₁.closed (by decide) hcond (not_clash_of_erase he₁)
    (by rw [firstKind_cons, hc]; decide)
  obtain ⟨rfl, rfl⟩ := List.cons.inj hws
  obtain ⟨hsep₂, rfl⟩ := h₂ k consequence' vs zs hblock he₂
  exact ⟨hsep₁, hsep₂, he, alternative', he₃, hrest⟩

section

variable {i f w o t op c : Token} {ts us vs xs : List Token} {least : Nat} {span : Option Span}
  {left right callee condition consequence alternative body value : Node} {args ns : List Node}

/-! ### Expressions -/

/-- A name is read back as one. -/
theorem reread_name (ht : t.kind = .identifier) :
    (Part.expression least (.identifier span t.text)).Reread [t] := by
  intro k above n vs us _ hl _
  obtain ⟨left, xs, hleft, hr⟩ := hl.expression
  have hoperand := hleft.operand
  simp only [Leaves.Operand, ht] at hoperand
  obtain ⟨rfl, span', rfl⟩ := hoperand
  exact ⟨fun _ h => (by cases h), .identifier span' t.text, rfl, hr⟩

/-- An integer is read back with the same value. -/
theorem reread_integer {value : Nat} (ht : t.kind = .integer)
    (hv : Text.digitsValue t.text.toList = value) :
    (Part.expression least (.integer span value)).Reread [t] := by
  intro k above n vs us _ hl _
  obtain ⟨left, xs, hleft, hr⟩ := hl.expression
  have hoperand := hleft.operand
  simp only [Leaves.Operand, ht] at hoperand
  obtain ⟨rfl, -, span', rfl⟩ := hoperand
  exact ⟨fun _ h => (by cases h), _, by rw [hv]; rfl, hr⟩

/-- A sign with its operand is read back between its parentheses. -/
theorem reread_unary (ho : o.kind = .leftParen) (ht : t.kind = .bang ∨ t.kind = .minus)
    (hc : c.kind = .rightParen) (ih : (Part.expression signPrecedence e).Reread ts) :
    (Part.expression least (.unary span t.text e)).Reread (o :: t :: (ts ++ [c])) := by
  intro k above n vs us _ hl hn
  rw [List.cons_append, List.cons_append, ← List.append_cons] at hl
  refine reread_grouped (c := c) ho hl hn fun m xs hm hclash => ?_
  obtain ⟨left, ys, hleft, hr⟩ := hm.expression
  obtain ⟨span', e', rfl, hinner⟩ : ∃ span e, left = .unary span t.text e ∧
      Leaves k (.expression signStrength e) (ts ++ c :: vs) ys := by
    have hoperand := hleft.operand
    rcases ht with ht | ht <;> · simpa only [Leaves.Operand, ht] using hoperand
  have he := erase_of_not_clash (s := []) rfl rfl (hr.not_clash hclash)
  simp only [Node.erase, Node.unary.injEq, true_and] at he
  obtain ⟨hsep, -, rfl⟩ := ih.closed (Nat.le_refl _) hinner (not_clash_of_erase he)
    (by rw [firstKind_cons, hc]; decide)
  obtain ⟨rfl, rfl⟩ := hr.operators_stop (by rw [firstKind_cons, hc]; decide)
  exact ⟨hsep, by simp only [Node.erase, he], rfl⟩

/-- Two operands are read back between the parentheses of their operator. -/
theorem reread_binary (ho : o.kind = .leftParen) (hop : op.kind.isInfix) (hc : c.kind = .rightParen)
    (ih₁ : (Part.expression op.kind.strength left).Reread ts)
    (ih₂ : (Part.expression (op.kind.strength + 1) right).Reread us) :
    (Part.expression least (.binary span left op.text right)).Reread
      (o :: (ts ++ op :: (us ++ [c]))) := by
  intro k above n vs xs _ hl hn
  obtain ⟨hlow, hsign, hparen, -⟩ := Kind.infix_facts hop
  have hts : o :: (ts ++ op :: (us ++ [c])) ++ vs = o :: (ts ++ op :: (us ++ c :: vs)) := by simp
  rw [hts] at hl
  refine reread_grouped (c := c) ho hl hn fun m ys hm hclash => ?_
  have hleft : ¬ Clash m left := fun h => hclash (h.right (List.prefix_append ..))
  obtain ⟨hsep₁, left', he₁, hr⟩ := ih₁ k lowest m _ ys (by decide) hm hleft
  -- the operator goes on with what is read for the left operand
  obtain ⟨rfl, -, hstop⟩ | ⟨op', vs', ws, span', hcons, -, hcase⟩ := hr.operators
  · exact absurd hlow (Nat.not_lt.2 hstop)
  obtain ⟨rfl, rfl⟩ := List.cons.inj hcons
  obtain ⟨-, right', hright, hr'⟩ := hcase.resolve_right fun h => hparen h.1
  have hspine : (Node.binary span' left' op.text right').spine =
      left.spine ++ [(Node.binary span' left' op.text right').erase] := by
    rw [Node.spine, Node.spine_congr he₁]
  have he := erase_of_not_clash hspine rfl (hr'.not_clash hclash)
  have he₂ : right'.erase = right.erase := by
    simp only [Node.erase, Node.binary.injEq] at he
    exact he.2.2.2
  obtain ⟨hsep₂, -, rfl⟩ := ih₂.closed hsign hright (not_clash_of_erase he₂)
    (by rw [firstKind_cons, hc]; exact Nat.le_of_lt hlow)
  obtain ⟨rfl, rfl⟩ := hr'.operators_stop (by rw [firstKind_cons, hc]; decide)
  exact ⟨Part.separate_binary.2 ⟨hsep₁, hsep₂⟩, he, rfl⟩

/-- A callee is read back in front of its arguments, and then the arguments. -/
theorem reread_call (ho : o.kind = .leftParen) (hc : c.kind = .rightParen)
    (ih₁ : (Part.expression calleePrecedence callee).Reread ts)
    (ih₂ : (Part.arguments args).Reread us) :
    (Part.expression least (.call span callee args)).Reread (ts ++ o :: (us ++ [c])) := by
  intro k above n vs xs ha hl hn
  have hts : ts ++ o :: (us ++ [c]) ++ vs = ts ++ o :: (us ++ c :: vs) := by simp
  rw [hts] at hl
  have hcallee : ¬ Clash n callee := fun h => hn (h.right (List.prefix_append ..))
  obtain ⟨hsep₁, callee', he₁, hr⟩ := ih₁ k above n _ xs ha hl hcallee
  -- the parenthesis goes on with what is read for the callee
  obtain ⟨rfl, -, hstop⟩ | ⟨o', vs', ws, span', hcons, -, hcase⟩ := hr.operators
  · rw [firstKind_cons, ho] at hstop
    exact absurd (Nat.le_trans hstop ha) (by decide)
  obtain ⟨rfl, rfl⟩ := List.cons.inj hcons
  obtain ⟨-, args', hargs, hr'⟩ := hcase.resolve_left fun h => h.1 ho
  have hspine : (Node.call span' callee' args').spine =
      callee.spine ++ [(Node.call span' callee' args').erase] := by
    rw [Node.spine, Node.spine_congr he₁]
  have he := erase_of_not_clash hspine rfl (hr'.not_clash hn)
  have he₂ : args'.map Node.erase = args.map Node.erase := by
    simp only [Node.erase, Node.call.injEq, Node.eraseAll_eq_map] at he
    exact he.2.2
  obtain ⟨hsep₂, rfl⟩ := ih₂ k args' c vs ws hc hargs he₂
  exact ⟨Part.separate_call.2 ⟨hsep₁, hsep₂⟩, _, he, hr'⟩

/-- A function is read back with its parameters and its body. -/
theorem reread_function {ps : List Token} {names : List Name} (hf : f.kind = .functionWord)
    (hps : Names names ps) (hc : c.kind = .rightParen) (ih : (Part.block body).Reread ts) :
    (Part.expression least (.function span names body)).Reread (f :: o :: (ps ++ c :: ts)) := by
  intro k above n vs us _ hl hn
  obtain ⟨left, xs, hleft, hr⟩ := hl.expression
  have hoperand := hleft.operand
  simp only [Leaves.Operand, hf] at hoperand
  obtain ⟨span', names', body', o', ps', vs', rfl, hcons, -, hps', hbody⟩ := hoperand
  have he := erase_of_not_clash (s := []) rfl rfl (hr.not_clash hn)
  have hbodies : body'.erase = body.erase := by
    simp only [Node.erase, Node.function.injEq] at he
    exact he.2.2
  have hvs : vs' = ts ++ vs := by
    refine hps'.rest_unique (hps.parameters hc) ?_
    have htail := (List.cons.inj hcons).2
    rw [← htail]
    simp
  rw [hvs] at hbody
  obtain ⟨hsep, rfl⟩ := ih k body' vs xs hbody hbodies
  exact ⟨hsep, _, he, hr⟩

/-- A conditional is read back without an alternative, which cannot follow. -/
theorem reread_ifOnly (hi : i.kind = .ifWord) (hc : c.kind = .rightParen)
    (ih₁ : (Part.expression loosest condition).Reread ts)
    (ih₂ : (Part.block consequence).Reread us) :
    (Part.expression least (.conditional span condition consequence .missing)).Reread
      (i :: o :: (ts ++ c :: us)) := by
  intro k above n vs xs _ hl hn
  obtain ⟨left, ys, hleft, hr⟩ := hl.expression
  have hts : i :: o :: (ts ++ c :: us) ++ vs = i :: o :: (ts ++ c :: (us ++ vs)) := by simp
  rw [hts] at hleft
  obtain ⟨hsep₁, hsep₂, he, a, ha, hrest⟩ :=
    reread_conditional hi hleft (hr.not_clash hn) hc ih₁ ih₂
  have hys : ys = vs := by
    rcases hrest with ⟨h, -, -⟩ | ⟨_, _, -, -, h | ⟨_, _, _, -, rfl⟩⟩
    · exact h
    · obtain ⟨_, _, _, _, _, -, -, -, -, rfl⟩ := h.block
      cases ha
    · cases ha
  rw [hys] at hr
  exact ⟨Part.separate_conditional.2 ⟨hsep₁, hsep₂, fun _ h => (by cases h)⟩, _, he, hr⟩

/-- A conditional is read back with its alternative. -/
theorem reread_ifElse {e : Token} (hi : i.kind = .ifWord) (hc : c.kind = .rightParen)
    (he' : e.kind = .elseWord) (halt : Prints (.block alternative) xs)
    (ih₁ : (Part.expression loosest condition).Reread ts) (ih₂ : (Part.block consequence).Reread us)
    (ih₃ : (Part.block alternative).Reread xs) :
    (Part.expression least (.conditional span condition consequence alternative)).Reread
      (i :: o :: (ts ++ c :: (us ++ e :: xs))) := by
  intro k above n vs zs _ hl hn
  obtain ⟨left, ys, hleft, hr⟩ := hl.expression
  have hts : i :: o :: (ts ++ c :: (us ++ e :: xs)) ++ vs =
      i :: o :: (ts ++ c :: (us ++ e :: (xs ++ vs))) := by simp
  rw [hts] at hleft
  obtain ⟨hsep₁, hsep₂, he, a, ha, hrest⟩ :=
    reread_conditional hi hleft (hr.not_clash hn) hc ih₁ ih₂
  have hblock : Leaves k (.block a) (xs ++ vs) ys := by
    rcases hrest with ⟨-, h, -⟩ | ⟨e', xs', hcons, -, h | ⟨_, _, _, h, -⟩⟩
    · exact absurd he' h
    · obtain ⟨rfl, rfl⟩ := List.cons.inj hcons
      exact h
    · -- an `if` cannot stand here: the alternative is printed in braces
      obtain ⟨rfl, rfl⟩ := List.cons.inj hcons
      obtain ⟨i', _, _, _, _, _, _, _, _, _, hxs, hi', -⟩ := h.conditional
      cases halt with
      | block ho' =>
        obtain ⟨rfl, -⟩ := List.cons.inj hxs
        rw [hi'] at ho'
        cases ho'
  obtain ⟨hsep₃, rfl⟩ := ih₃ k a vs ys hblock ha
  exact ⟨Part.separate_conditional.2 ⟨hsep₁, hsep₂, hsep₃⟩, _, he, hr⟩

/-! ### Arguments -/

theorem reread_noArguments : (Part.arguments []).Reread [] := by
  intro k es' c vs us hc hl he
  rw [List.map_nil, List.map_eq_nil_iff] at he
  subst he
  rcases hl.arguments with ⟨c', hcons, -, -⟩ | ⟨_, _, _, h, -⟩
  · exact ⟨fun _ h => (by cases h), (List.cons.inj hcons).2.symm⟩
  · cases h

theorem reread_lastArgument (ih : (Part.expression loosest e).Reread ts) :
    (Part.arguments [e]).Reread ts := by
  intro k es' c vs us hc hl he
  obtain ⟨e', rfl, he'⟩ := List.map_eq_singleton_iff.1 he
  obtain ⟨_, _, -, h⟩ | ⟨_, _, ws, hcons, hfirst, hrest⟩ := hl.arguments
  · cases h
  obtain ⟨rfl, rfl⟩ := List.cons.inj hcons
  obtain ⟨hsep, -, rfl⟩ := ih.closed (by decide) hfirst (not_clash_of_erase he')
    (by rw [firstKind_cons, hc]; decide)
  obtain ⟨c', hcons, -, -⟩ | ⟨_, _, _, _, _, -, -, h, -⟩ := hrest.moreArguments
  · exact ⟨Part.separate_arguments_cons.2 ⟨hsep, fun _ h => (by cases h)⟩,
      (List.cons.inj hcons).2.symm⟩
  · cases h

/-- Arguments are read back one by one, each up to its comma. -/
theorem reread_nextArgument {comma : Token} {e' : Node} {es : List Node}
    (hcomma : comma.kind = .comma) (ih₁ : (Part.expression loosest e).Reread ts)
    (ih₂ : (Part.arguments (e' :: es)).Reread us) :
    (Part.arguments (e :: e' :: es)).Reread (ts ++ comma :: us) := by
  intro k es' c vs xs hc hl he
  have hts : ts ++ comma :: us ++ c :: vs = ts ++ comma :: (us ++ c :: vs) := by simp
  rw [hts] at hl
  obtain ⟨n, ns, rfl, he₁, he₂⟩ := List.map_eq_cons_iff.1 he
  obtain ⟨_, _, -, h⟩ | ⟨_, _, ws, hcons, hfirst, hrest⟩ := hl.arguments
  · cases h
  obtain ⟨rfl, rfl⟩ := List.cons.inj hcons
  obtain ⟨hsep₁, -, rfl⟩ := ih₁.closed (by decide) hfirst (not_clash_of_erase he₁)
    (by rw [firstKind_cons, hcomma]; decide)
  obtain ⟨_, _, -, rfl⟩ | ⟨_, m, ms, _, zs, htail, -, rfl, hnext, hrest⟩ := hrest.moreArguments
  · cases he₂
  obtain ⟨rfl, rfl⟩ := List.cons.inj htail
  obtain ⟨hsep₂, rfl⟩ := ih₂ k (m :: ms) c vs xs hc (hnext.arguments_cons hrest) he₂
  exact ⟨Part.separate_arguments_cons.2 ⟨hsep₁, hsep₂⟩, rfl⟩

/-! ### Statements -/

/-- A block is read back up to its closing brace. -/
theorem reread_block (hc : c.kind = .rightBrace) (ih : (Part.statements ns).Reread ts) :
    (Part.block (.block span ns)).Reread (o :: (ts ++ [c])) := by
  intro k n' vs us hl he
  have hts : o :: (ts ++ [c]) ++ vs = o :: (ts ++ c :: vs) := by simp
  rw [hts] at hl
  obtain ⟨_, c', _, span', ns', hcons, -, -, hstatements, rfl⟩ := hl.block
  obtain ⟨rfl, rfl⟩ := List.cons.inj hcons
  simp only [Node.erase, Node.block.injEq, Node.eraseAll_eq_map, true_and] at he
  obtain ⟨hsep, hus⟩ := ih k ns' (c :: vs) _ (.inl hc) hstatements he
  exact ⟨hsep, (List.cons.inj hus).2⟩

theorem reread_noStatements : (Part.statements []).Reread [] := by
  intro k ns' vs us _ hl he
  rw [List.map_nil, List.map_eq_nil_iff] at he
  subst he
  rcases hl.statements with ⟨-, rfl⟩ | ⟨_, _, _, h, -⟩
  · exact ⟨List.forall_mem_singleton.2 parted_nil, rfl⟩
  · cases h

/-- Statements are read back one by one: what follows one opens another. -/
theorem reread_statements (hns : Prints (.statements ns) us) (ih₁ : (Part.statement n).Reread ts)
    (ih₂ : (Part.statements ns).Reread us) : (Part.statements (n :: ns)).Reread (ts ++ us) := by
  intro k ns' vs xs hk hl he
  obtain ⟨m, ms, rfl, he₁, he₂⟩ := List.map_eq_cons_iff.1 he
  obtain ⟨h, -⟩ | ⟨_, _, ws, hcons, hfirst, hrest⟩ := hl.statements
  · cases h
  obtain ⟨rfl, rfl⟩ := List.cons.inj hcons
  have hopens : (firstKind vs k).opensStatement ∧ firstKind vs k ≠ .leftParen := by
    rcases hk with hk | hk <;> · rw [hk]; decide
  obtain ⟨ho, hp⟩ := hns.opens_statements hopens.1 hopens.2
  rw [← firstKind_append] at ho hp
  rw [List.append_assoc] at hfirst
  obtain ⟨⟨hsep₁, rfl⟩, hparen⟩ := ih₁ k m (us ++ vs) ws ho hfirst he₁
  obtain ⟨hsep₂, rfl⟩ := ih₂ k ms vs xs hk hrest he₂
  refine ⟨Part.separate_statements_cons.2 ⟨fun span e hn m' rest hm hchar => ?_, hsep₁, hsep₂⟩,
    rfl⟩
  exact hparen span e hn (hp.2 ⟨m', rest, hm, hchar⟩)

/-- A declaration or an assignment is read back up to its semicolon. -/
theorem reread_binding (h : Prints (.clause n) ts) (ht : t.kind = .semicolon)
    (ih : (Part.clause n).Reread ts) : (Part.statement n).Reread (ts ++ [t]) := by
  intro k n' vs us _ hl he
  rw [List.append_assoc, List.singleton_append] at hl
  refine ⟨?_, fun span e hn => ?_⟩
  · cases hl.statement with
    | binding hbinding hterm =>
      obtain ⟨hsep, rfl⟩ := ih k n' (t :: vs) _ (.inl ht) hbinding he
      obtain ⟨_, hcons, -⟩ | ⟨-, hne⟩ := hterm
      · exact ⟨hsep, (List.cons.inj hcons).2.symm⟩
      · exact absurd ht hne
    | _ => cases h <;> cases he
  · subst hn
    cases h

/-- An expression is read back as a statement if no parenthesis follows, which would make it a
callee. -/
theorem reread_expressionStatement (ih : (Part.expression loosest e).Reread ts) :
    (Part.statement (.expression span e)).Reread ts := by
  intro k n' vs us hk hl he
  cases hl.statement with
  | binding hbinding _ =>
    obtain ⟨_, _, h⟩ | ⟨_, _, h⟩ := hbinding.binding_erase <;> cases he.symm.trans h
  | @expression ws span' e' hexpression hterm =>
    have he' : e'.erase = e.erase := by
      simpa only [Node.erase, Node.expression.injEq, true_and] using he
    obtain ⟨hsep, e'', he'', hr⟩ :=
      ih k lowest e' vs ws (by decide) hexpression (not_clash_of_erase he')
    -- nothing was added to the expression, which is as large as it was
    have hstop : ws = vs ∧ (firstKind vs k).strength ≤ lowest := by
      obtain ⟨h, -, hs⟩ | ⟨op, _, _, span'', -, -, hcase⟩ := hr.operators
      · exact ⟨h, hs⟩
      · have hspine : e'.spine = e''.spine := Node.spine_congr (he'.trans he''.symm)
        obtain ⟨-, _, -, h⟩ | ⟨-, _, -, h⟩ := hcase
        all_goals
          have hlength := h.grows.length_le
          rw [hspine, Node.spine, List.length_append, List.length_singleton] at hlength
          exact absurd hlength (Nat.not_succ_le_self _)
    obtain ⟨rfl, hs⟩ := hstop
    have hparen : firstKind ws k ≠ .leftParen := fun h => by
      rw [h] at hs
      exact absurd hs (by decide)
    obtain ⟨t, rfl, ht⟩ | ⟨rfl, -⟩ := hterm
    · rw [firstKind_cons, ht] at hk
      cases hk
    · exact ⟨⟨hsep, rfl⟩, fun _ _ _ => hparen⟩
  | _ => cases he

/-- A loop is read back condition first. -/
theorem reread_whileLoop (hc : c.kind = .rightParen)
    (ih₁ : (Part.expression loosest condition).Reread ts) (ih₂ : (Part.block body).Reread us) :
    (Part.statement (.whileLoop span condition body)).Reread (w :: o :: (ts ++ c :: us)) := by
  intro k n' vs xs _ hl he
  have hts : w :: o :: (ts ++ c :: us) ++ vs = w :: o :: (ts ++ c :: (us ++ vs)) := by simp
  rw [hts] at hl
  refine ⟨?_, fun _ _ hn => (by cases hn)⟩
  cases hl.statement with
  | whileLoop hcons _ _ hcondition _ hbody =>
    obtain ⟨rfl, rfl, rfl⟩ : _ ∧ _ ∧ ts ++ c :: (us ++ vs) = _ := by
      simpa using hcons
    simp only [Node.erase, Node.whileLoop.injEq, true_and] at he
    obtain ⟨hsep₁, -, hws⟩ := ih₁.closed (by decide) hcondition (not_clash_of_erase he.1)
      (by rw [firstKind_cons, hc]; decide)
    obtain ⟨rfl, rfl⟩ := List.cons.inj hws
    obtain ⟨hsep₂, rfl⟩ := ih₂ k _ vs xs hbody he.2
    exact ⟨Part.separate_whileLoop.2 ⟨hsep₁, hsep₂⟩, rfl⟩
  | binding hbinding _ =>
    obtain ⟨_, _, h⟩ | ⟨_, _, h⟩ := hbinding.binding_erase <;> cases he.symm.trans h
  | _ => cases he

/-- A counting loop is read back clause by clause. -/
theorem reread_forLoop {s₁ s₂ : Token} {init post : Node} (h₁ : s₁.kind = .semicolon)
    (h₂ : s₂.kind = .semicolon) (hc : c.kind = .rightParen) (ih₁ : (Part.clause init).Reread ts)
    (ih₂ : (Part.expression loosest condition).Reread us) (ih₃ : (Part.clause post).Reread vs)
    (ih₄ : (Part.block body).Reread xs) :
    (Part.statement (.forLoop span init condition post body)).Reread
      (f :: o :: (ts ++ s₁ :: (us ++ s₂ :: (vs ++ c :: xs)))) := by
  intro k n' ys zs _ hl he
  have hts : f :: o :: (ts ++ s₁ :: (us ++ s₂ :: (vs ++ c :: xs))) ++ ys =
      f :: o :: (ts ++ s₁ :: (us ++ s₂ :: (vs ++ c :: (xs ++ ys)))) := by simp
  rw [hts] at hl
  refine ⟨?_, fun _ _ hn => (by cases hn)⟩
  cases hl.statement with
  | forLoop hcons _ _ hinit _ hcondition _ hpost _ hbody =>
    obtain ⟨rfl, rfl, rfl⟩ : _ ∧ _ ∧ ts ++ s₁ :: (us ++ s₂ :: (vs ++ c :: (xs ++ ys))) = _ := by
      simpa using hcons
    simp only [Node.erase, Node.forLoop.injEq, true_and] at he
    obtain ⟨hsep₁, hrest⟩ := ih₁ k _ (s₁ :: _) _ (.inl h₁) hinit he.1
    obtain ⟨rfl, rfl⟩ := List.cons.inj hrest
    obtain ⟨hsep₂, -, hrest⟩ := ih₂.closed (by decide) hcondition (not_clash_of_erase he.2.1)
      (by rw [firstKind_cons, h₂]; decide)
    obtain ⟨rfl, rfl⟩ := List.cons.inj hrest
    obtain ⟨hsep₃, hrest⟩ := ih₃ k _ (c :: _) _ (.inr hc) hpost he.2.2.1
    obtain ⟨rfl, rfl⟩ := List.cons.inj hrest
    obtain ⟨hsep₄, rfl⟩ := ih₄ k _ ys zs hbody he.2.2.2
    exact ⟨Part.separate_forLoop.2 ⟨hsep₁, hsep₂, hsep₃, hsep₄⟩, rfl⟩
  | binding hbinding _ =>
    obtain ⟨_, _, h⟩ | ⟨_, _, h⟩ := hbinding.binding_erase <;> cases he.symm.trans h
  | _ => cases he

theorem reread_declaration {l a : Token} {span₁ : Option Span}
    (ih : (Part.expression loosest value).Reread ts) :
    (Part.clause (.declaration span ⟨t.text, span₁⟩ value)).Reread (l :: t :: a :: ts) := by
  intro k n' vs us hk hl he
  have hstop : (firstKind vs k).strength ≤ lowest := by
    rcases hk with hk | hk <;> · rw [hk]; decide
  obtain ⟨_, _, _, _, _, _, value', hcons, -, -, -, hvalue, rfl⟩ |
      ⟨_, _, _, _, _, _, -, -, -, -, rfl⟩ := hl.binding
  · obtain ⟨rfl, rfl, rfl, rfl⟩ : _ ∧ _ ∧ _ ∧ ts ++ vs = _ := by
      simpa using hcons
    simp only [Node.erase, Node.declaration.injEq] at he
    obtain ⟨hsep, -, rfl⟩ := ih.closed (by decide) hvalue (not_clash_of_erase he.2.2) hstop
    exact ⟨hsep, rfl⟩
  · cases he

theorem reread_assignment {a : Token} {span₁ : Option Span}
    (ih : (Part.expression loosest value).Reread ts) :
    (Part.clause (.assignment span ⟨t.text, span₁⟩ value)).Reread (t :: a :: ts) := by
  intro k n' vs us hk hl he
  have hstop : (firstKind vs k).strength ≤ lowest := by
    rcases hk with hk | hk <;> · rw [hk]; decide
  obtain ⟨_, _, _, _, _, _, _, -, -, -, -, -, rfl⟩ |
      ⟨_, _, _, _, _, value', hcons, -, -, hvalue, rfl⟩ := hl.binding
  · cases he
  · obtain ⟨rfl, rfl, rfl⟩ : _ ∧ _ ∧ ts ++ vs = _ := by
      simpa using hcons
    simp only [Node.erase, Node.assignment.injEq] at he
    obtain ⟨hsep, -, rfl⟩ := ih.closed (by decide) hvalue (not_clash_of_erase he.2.2) hstop
    exact ⟨hsep, rfl⟩

end

/-- **What is read back is separate.** -/
theorem Prints.reread {part : Part} {ts : List Token} (h : Prints part ts) : part.Reread ts := by
  induction h with
  | identifier ht => exact reread_name ht.kind
  | integer ht _ hv => exact reread_integer ht hv
  | unary ho ht _ hc ih => exact reread_unary ho ht hc ih
  | binary ho _ hop _ hc ih₁ ih₂ => exact reread_binary ho hop hc ih₁ ih₂
  | call _ ho _ hc ih₁ ih₂ => exact reread_call ho hc ih₁ ih₂
  | function hf _ hps hc _ ih => exact reread_function hf hps hc ih
  | ifOnly hi _ _ hc _ ih₁ ih₂ => exact reread_ifOnly hi hc ih₁ ih₂
  | ifElse hi _ _ hc _ he halt ih₁ ih₂ ih₃ => exact reread_ifElse hi hc he halt ih₁ ih₂ ih₃
  | noArguments => exact reread_noArguments
  | lastArgument _ ih => exact reread_lastArgument ih
  | nextArgument _ hcomma _ ih₁ ih₂ => exact reread_nextArgument hcomma ih₁ ih₂
  | block _ _ hc ih => exact reread_block hc ih
  | noStatements => exact reread_noStatements
  | statements _ hns ih₁ ih₂ => exact reread_statements hns ih₁ ih₂
  | binding h ht ih => exact reread_binding h ht ih
  | expressionStatement _ ih => exact reread_expressionStatement ih
  | whileLoop _ _ _ hc _ ih₁ ih₂ => exact reread_whileLoop hc ih₁ ih₂
  | forLoop _ _ _ h₁ _ h₂ _ hc _ ih₁ ih₂ ih₃ ih₄ => exact reread_forLoop h₁ h₂ hc ih₁ ih₂ ih₃ ih₄
  | declaration _ _ _ _ ih => exact reread_declaration ih
  | assignment _ _ _ ih => exact reread_assignment ih

end Ember

import Ember.Proofs.Grammar.Reading

/-!
# Clean parses read what the grammar says

A rule that ends without a problem has read the tokens it moved over as the tree it
gives: `parsePhrase_sound`. Each rule is opened once, under the assumption that the
phrases inside are read so, and the bounds on its loops turn out to be large enough:
every round leaves a token behind.
-/

namespace Ember

/-! ## Small facts about readings -/

/-- What is read as a tree is one: the tree is not missing. -/
def Reading.Present : Reading → Prop
  | .operand n | .expression _ n | .conditional n | .block n | .binding n | .statement n =>
    n.isMissing = false
  | .operators _ left n => left.isMissing = false → n.isMissing = false
  | .arguments _ | .moreArguments _ | .statements _ => True

/-- What is read is a tree that is there. -/
theorem Reads.present {r : Reading} {ts : List Token} {k : Kind} (h : Reads r ts k) :
    r.Present := by
  induction h with
  | expression _ _ ihl ihr => exact ihr ihl
  | infixed _ _ _ _ _ ih => exact fun _ => ih rfl
  | call _ _ _ _ _ ih => exact fun _ => ih rfl
  | stop _ => exact id
  | grouped _ _ _ ih => exact ih
  | choice _ ih => exact ih
  | binding _ _ ih => exact ih
  | _ => first | rfl | trivial

/-- The kinds of token that an expression starts with. -/
def Kind.beginsExpression : Kind → Bool
  | .identifier | .integer | .bang | .minus | .leftParen | .ifWord | .functionWord => true
  | _ => false

/-- Only operators behind an operand and statements may be absent altogether. -/
def Reading.NotEmpty : Reading → Prop
  | .operators .. | .statements _ => False
  | _ => True

/-- What the first token is. -/
def Reading.First (k : Kind) : Reading → Prop
  | .operand _ | .expression .. => k.beginsExpression
  | .conditional _ => k = .ifWord
  | .block _ => k = .leftBrace
  | .binding _ => k = .letWord ∨ k = .identifier
  | .statement _ => k.beginsExpression ∨ k = .letWord ∨ k = .whileWord ∨ k = .forWord
  | .operators .. | .arguments _ | .moreArguments _ | .statements _ => True

/-- What takes tokens starts with one that the rule looks for. -/
theorem Reads.first {r : Reading} {ts : List Token} {k : Kind} (h : Reads r ts k)
    (hr : r.NotEmpty) : ∃ t us, ts = t :: us ∧ r.First t.kind := by
  induction h with
  | expression _ _ ih _ =>
    obtain ⟨t, us, rfl, ht⟩ := ih trivial
    exact ⟨t, us ++ _, rfl, ht⟩
  | arguments _ _ ih _ =>
    obtain ⟨t, us, rfl, -⟩ := ih trivial
    exact ⟨t, us ++ _, rfl, trivial⟩
  | binding _ _ ih =>
    obtain ⟨t, us, rfl, ht⟩ := ih trivial
    refine ⟨t, us ++ _, rfl, ?_⟩
    rcases ht with ht | ht
    · exact .inr (.inl ht)
    · exact .inl (by rw [ht]; rfl)
  | expressionStatement _ _ _ ih =>
    obtain ⟨t, us, rfl, ht⟩ := ih trivial
    exact ⟨t, us ++ _, rfl, .inl ht⟩
  | choice _ ih =>
    obtain ⟨t, us, rfl, ht⟩ := ih trivial
    refine ⟨t, us, rfl, ?_⟩
    change t.kind = .ifWord at ht
    rw [Reading.First, ht]
    rfl
  | signed ht _ _ =>
    refine ⟨_, _, rfl, ?_⟩
    rcases ht with ht | ht <;> · rw [Reading.First, ht]; rfl
  | stop _ => exact hr.elim
  | noStatements => exact hr.elim
  | statements => exact hr.elim
  | infixed => exact hr.elim
  | call => exact hr.elim
  | _ => refine ⟨_, _, rfl, ?_⟩; simp_all [Reading.First, Kind.beginsExpression]

theorem Reads.ne_nil {r : Reading} {ts : List Token} {k : Kind} (h : Reads r ts k)
    (hr : r.NotEmpty) : ts ≠ [] := by
  obtain ⟨t, us, rfl, -⟩ := h.first hr
  exact List.cons_ne_nil _ _

/-- An argument in front of others, which are there: the comma stands between them. -/
theorem Reads.arguments_cons {ts us : List Token} {c c' : Token} {k : Kind} {e : Node}
    {es : List Node} (h : Reads (.expression lowest e) ts .comma) (hc : c.kind = .comma)
    (hne : us ≠ []) (hs : Reads (.arguments es) (us ++ [c']) k) :
    Reads (.arguments (e :: es)) (ts ++ c :: us ++ [c']) k := by
  rw [List.append_assoc, List.cons_append]
  generalize hxs : us ++ [c'] = xs at hs ⊢
  cases hs with
  | noArguments =>
    cases us with
    | nil => exact absurd rfl hne
    | cons t us => simp at hxs
  | arguments h₁ h₂ => exact .arguments (by rwa [firstKind_cons, hc]) (.nextArgument hc h₁ h₂)

/-- Operators are only taken that bind more strongly than other tokens. -/
def Reading.Proper : Reading → Prop
  | .expression above _ | .operators above _ _ => lowest ≤ above
  | _ => True

/-- Parameters do not reach over the end of the text. -/
theorem MoreParameters.not_end {ts : List Token} {names : List Name} (h : MoreParameters ts names) :
    ∀ t ∈ ts, t.kind ≠ .endOfText := by
  induction h with
  | close hc => simp [hc]
  | next hc ht _ ih => simpa [hc, ht] using ih

theorem Parameters.not_end {ts : List Token} {names : List Name} (h : Parameters ts names) :
    ∀ t ∈ ts, t.kind ≠ .endOfText := by
  cases h with
  | none hc => simp [hc]
  | some ht h => simpa [ht] using h.not_end

/-- The end of the text ends no statement by itself. -/
theorem Terminator.not_end {ts : List Token} {k : Kind} (h : Terminator ts k) :
    ∀ t ∈ ts, t.kind ≠ .endOfText := by
  cases h with
  | semicolon ht => simp [ht]
  | omitted => simp

/-- The end of the text binds nothing. -/
theorem Kind.ne_endOfText_of_lt {k : Kind} {above : Nat} (h : above < k.strength)
    (ha : lowest ≤ above) : k ≠ .endOfText := by
  rintro rfl
  exact absurd (Nat.lt_of_le_of_lt ha h) (by decide)

/-- The end of the text is never read. -/
theorem Reads.not_end {r : Reading} {ts : List Token} {k : Kind} (h : Reads r ts k)
    (hr : r.Proper) : ∀ t ∈ ts, t.kind ≠ .endOfText := by
  induction h with
  | signed ht _ ih =>
    have hi := ih (show lowest ≤ signStrength by decide)
    rcases ht with ht | ht <;> simpa [ht] using hi
  | function hf ho hps _ ih =>
    simpa [or_imp, forall_and, hf, ho] using ⟨hps.not_end, ih trivial⟩
  | expression _ _ ih₁ ih₂ => simpa [or_imp, forall_and] using ⟨ih₁ trivial, ih₂ hr⟩
  | infixed hs _ _ _ ih₁ ih₂ =>
    have hr' := Nat.le_of_lt (Nat.lt_of_le_of_lt hr hs)
    have := Kind.ne_endOfText_of_lt hs hr
    simpa [or_imp, forall_and, this] using ⟨ih₁ hr', ih₂ hr⟩
  | call hs ho _ _ ih₁ ih₂ => simpa [or_imp, forall_and, ho] using ⟨ih₁ trivial, ih₂ hr⟩
  | binding _ hu ih => simpa [or_imp, forall_and] using ⟨ih trivial, hu.not_end⟩
  | expressionStatement _ hu _ ih => simpa [or_imp, forall_and] using
      ⟨ih (Nat.le_refl lowest), hu.not_end⟩
  | _ => simp_all [Reading.Proper, or_imp]

/-- The end of the text stands behind whatever is read. -/
theorem Reads.ahead_ne_nil {w w' : Window} {r : Reading} {ts : List Token} {k : Kind}
    (h : Reads r ts k) (hr : r.Proper) (hw : w.Ended) (ht : w.tokens = ts ++ w'.ahead) :
    w'.ahead ≠ [] := by
  intro hnil
  rw [hnil, List.append_nil] at ht
  obtain ⟨last, hmem, hlast⟩ := hw.exists_end List.suffix_rfl (List.cons_ne_nil _ _)
  exact h.not_end hr last (ht ▸ hmem) hlast

/-! ## The rules -/

/-- What the rule for a phrase may rely on. -/
def Phrase.Ready (w : Window) : Phrase → Prop
  | .statement => True
  | .block => w.current.kind = .leftBrace
  | .expression above => 1 ≤ above
  | .conditional => w.current.kind = .ifWord
  | .call _ => w.current.kind = .leftParen

/-- The tokens are read as the phrase, which gives the tree `n`. -/
def Phrase.Reads (n : Node) (ts : List Token) (k : Kind) : Phrase → Prop
  | .statement => Ember.Reads (.statement n) ts k
  | .block => Ember.Reads (.block n) ts k
  | .expression above => Ember.Reads (.expression above n) ts k
  | .conditional => Ember.Reads (.conditional n) ts k
  | .call callee => ∃ o us span args, ts = o :: us ∧ n = .call span callee args ∧
      Ember.Reads (.arguments args) us k

namespace Parser

/-- Clean parses by these rules read what the grammar says. -/
def Sound (self : Phrase → Parser Node) : Prop :=
  ∀ phrase (w : Window) n (w' : Window), w.Ended → phrase.Ready w → Clean (self phrase) w n w' →
    ∃ ts, w.tokens = ts ++ w'.ahead ∧ phrase.Reads n ts w'.follow

variable {w w' : Window} {n : Node}

/-! ### Parameters -/

/-- Further parameters that were collected cleanly are read so, by induction on the bound of the
loop. -/
theorem moreParameters_sound {m : Nat} {found : Array Name} {r : Option (Array Name)}
    (hw : w.Ended) (hm : w.ahead.length < m) (h : Clean (moreParameters found m) w r w') :
    ∃ all names ts, r = some all ∧ all.toList = found.toList ++ names ∧
      w.ahead = ts ++ w'.ahead ∧ MoreParameters ts names := by
  induction m generalizing found w with
  | zero => exact absurd hm (Nat.not_lt_zero _)
  | succ m ih =>
    rw [moreParameters, clean_nextIs_bind] at h
    by_cases hc : w.next.kind = .comma
    · rw [if_pos (decide_eq_true hc), clean_advance_bind, clean_expect_bind] at h
      obtain ⟨hi, h⟩ := h
      rw [if_pos rfl, clean_current_bind] at h
      obtain ⟨e₁, k₁⟩ := hw.next_of hc (by decide)
      obtain ⟨e₂, k₂⟩ := hw.advance.next_of hi (by decide)
      have ha : w.ahead =
          w.advance.current :: w.advance.advance.current :: w.advance.advance.ahead := by
        rw [e₁, Window.tokens, e₂, Window.tokens]
      have hlen := congrArg List.length ha
      simp only [List.length_cons] at hlen
      obtain ⟨all, names, ts, hr, hall, he, hts⟩ := ih hw.advance.advance (by omega) h
      refine ⟨all, nameOf w.advance.advance.current :: names, _ :: _ :: ts, hr, ?_, ?_,
        .next k₁ k₂ hts⟩
      · rw [hall, Array.toList_push, List.append_assoc, List.singleton_append]
      · rw [ha, he]
        rfl
    · rw [if_neg (by simp [hc]), clean_expect_bind] at h
      obtain ⟨hp, h⟩ := h
      rw [if_pos rfl, clean_pure] at h
      obtain ⟨rfl, rfl⟩ := h
      obtain ⟨e₁, k₁⟩ := hw.next_of hp (by decide)
      exact ⟨found, [], [w.advance.current], rfl, by simp, e₁, .close k₁⟩

/-- Parameters that were collected cleanly are read so. -/
theorem parameters_sound {r : Option (Array Name)} (hw : w.Ended)
    (h : Clean parameters w r w') :
    ∃ all ts, r = some all ∧ w.ahead = ts ++ w'.ahead ∧ Parameters ts all.toList := by
  rw [parameters, clean_nextIs_bind] at h
  by_cases hp : w.next.kind = .rightParen
  · rw [if_pos (decide_eq_true hp), clean_advance_bind, clean_pure] at h
    obtain ⟨rfl, rfl⟩ := h
    obtain ⟨e₁, k₁⟩ := hw.next_of hp (by decide)
    exact ⟨#[], [w.advance.current], rfl, e₁, .none k₁⟩
  · rw [if_neg (by simp [hp]), clean_expect_bind] at h
    obtain ⟨hi, h⟩ := h
    rw [if_pos rfl, clean_current_bind, clean_remaining_bind] at h
    obtain ⟨e₁, k₁⟩ := hw.next_of hi (by decide)
    obtain ⟨all, names, ts, hr, hall, he, hts⟩ :=
      moreParameters_sound hw.advance (Nat.lt_succ_self _) h
    refine ⟨all, w.advance.current :: ts, hr, by rw [e₁, Window.tokens, he]; rfl, ?_⟩
    rw [hall]
    exact .some k₁ hts

/-! ### Over the phrases inside -/

section

variable {self : Phrase → Parser Node} [∀ phrase, Along Window.Leads (self phrase)]

/-- Inside sound rules an expression takes the tokens that it is read from. -/
theorem Sound.expression (hs : Sound self) {above : Nat} (ha : 1 ≤ above) (hw : w.Ended)
    (h : Clean (self (.expression above)) w n w') :
    w'.Ended ∧ ∃ ts, w.tokens = ts ++ w'.ahead ∧ Reads (.expression above n) ts w'.follow :=
  ⟨h.ended hw, hs (.expression above) _ _ _ hw ha h⟩

/-- Inside sound rules a block takes the tokens that it is read from. -/
theorem Sound.block (hs : Sound self) (hw : w.Ended) (hk : w.current.kind = .leftBrace)
    (h : Clean (self .block) w n w') :
    w'.Ended ∧ ∃ ts, w.tokens = ts ++ w'.ahead ∧ Reads (.block n) ts w'.follow :=
  ⟨h.ended hw, hs .block _ _ _ hw hk h⟩

/-- Inside sound rules a statement takes the tokens that it is read from. -/
theorem Sound.statement (hs : Sound self) (hw : w.Ended) (h : Clean (self .statement) w n w') :
    w'.Ended ∧ ∃ ts, w.tokens = ts ++ w'.ahead ∧ Reads (.statement n) ts w'.follow :=
  ⟨h.ended hw, hs .statement _ _ _ hw trivial h⟩

/-! ### Expressions -/

/-- A sign and the expression of its operand are read as an operand. -/
theorem signed_sound (hs : Sound self) (hw : w.Ended)
    (hk : w.current.kind = .bang ∨ w.current.kind = .minus) (h : Clean (signed self) w n w') :
    ∃ ts, w.tokens = ts ++ w'.ahead ∧ Reads (.operand n) ts w'.follow := by
  rw [signed, clean_current_bind, clean_advance_bind, clean_bind] at h
  obtain ⟨operand, w₁, ho, h⟩ := h
  have e₁ := hw.ahead_eq (by rcases hk with hk | hk <;> simp [hk])
  obtain ⟨-, ts, ht, hr⟩ := hs.expression (by decide) hw.advance ho
  rw [if_neg (by simp [show operand.isMissing = false from hr.present]), clean_spanFrom_bind,
    clean_pure] at h
  obtain ⟨rfl, rfl⟩ := h
  exact ⟨w.current :: ts, by rw [Window.tokens, e₁, ht]; rfl, .signed hk hr⟩

/-- An expression between parentheses is read as an operand. -/
theorem grouped_sound (hs : Sound self) (hw : w.Ended) (hk : w.current.kind = .leftParen)
    (h : Clean (grouped self) w n w') :
    ∃ ts, w.tokens = ts ++ w'.ahead ∧ Reads (.operand n) ts w'.follow := by
  rw [grouped, clean_advance_bind, clean_bind] at h
  obtain ⟨inner, w₁, hi, h⟩ := h
  rw [clean_past, clean_pure] at h
  obtain ⟨hp, rfl, rfl⟩ := h
  have e₁ := hw.ahead_eq (by simp [hk])
  obtain ⟨hw₁, ts, ht, hr⟩ := hs.expression (by decide) hw.advance hi
  obtain ⟨e₂, k₂⟩ := hw₁.next_of hp (by decide)
  rw [hw₁.follow_eq hp] at hr
  refine ⟨w.current :: (ts ++ [w₁.advance.current]), ?_, .grouped hk hr k₂⟩
  rw [Window.tokens, e₁, ht, e₂, Window.tokens]
  simp

/-- Further arguments in front of the closing parenthesis are read so, by induction on the bound of
the loop. -/
theorem moreArguments_sound (hs : Sound self) {m : Nat} {found r : Array Node} (hw : w.Ended)
    (hm : w.ahead.length ≤ m) (h : Clean (moreArguments self found m) w r w')
    (hp : w'.follow = .rightParen) :
    ∃ ns ts, r.toList = found.toList ++ ns ∧ w.ahead = ts ++ w'.ahead ∧
      ∀ c : Token, c.kind = .rightParen → ∀ k, Reads (.moreArguments ns) (ts ++ [c]) k := by
  induction m generalizing found w with
  | zero =>
    rw [moreArguments, clean_pure] at h
    obtain ⟨rfl, rfl⟩ := h
    exact ⟨[], [], by simp, rfl, fun c hc k => .lastArgument hc⟩
  | succ m ih =>
    rw [moreArguments, clean_nextIs_bind] at h
    by_cases hc : w.next.kind = .comma
    · rw [if_pos (decide_eq_true hc), clean_advance_bind, clean_advance_bind, clean_bind] at h
      obtain ⟨argument, w₁, ha, h⟩ := h
      obtain ⟨e₁, k₁⟩ := hw.next_of hc (by decide)
      have e₂ := hw.advance.ahead_eq (by simp [k₁])
      obtain ⟨hw₁, ts, ht, hr⟩ := hs.expression (by decide) hw.advance.advance ha
      have hahead : w.ahead = w.advance.current :: (ts ++ w₁.ahead) := by
        rw [e₁, Window.tokens, e₂, ht]
      have hlen := congrArg List.length hahead
      simp only [List.length_cons, List.length_append] at hlen
      obtain ⟨ns, us, hall, hu, hrest⟩ := ih hw₁ (by omega) h
      refine ⟨argument :: ns, w.advance.current :: (ts ++ us), ?_, ?_, fun c hc k => ?_⟩
      · rw [hall, Array.toList_push, List.append_assoc, List.singleton_append]
      · rw [hahead, hu]
        simp
      · rw [Window.follow, hu, firstKind_append, ← Window.follow, hp] at hr
        rw [List.cons_append, List.append_assoc]
        refine .nextArgument k₁ ?_ (hrest c hc k)
        rwa [firstKind_append, firstKind_cons, hc]
    · rw [if_neg (by simp [hc]), clean_pure] at h
      obtain ⟨rfl, rfl⟩ := h
      exact ⟨[], [], by simp, rfl, fun c hc k => .lastArgument hc⟩

/-- Arguments that were collected cleanly are read up to the closing parenthesis. -/
theorem arguments_sound (hs : Sound self) {r : Option (Array Node)} (hw : w.Ended)
    (hk : w.current.kind = .leftParen) (h : Clean (arguments self) w r w') :
    ∃ all ts, r = some all ∧ w.ahead = ts ++ w'.ahead ∧
      Reads (.arguments all.toList) ts w'.follow := by
  rw [arguments, clean_nextIs_bind] at h
  by_cases hp : w.next.kind = .rightParen
  · rw [if_pos (decide_eq_true hp), clean_advance_bind, clean_pure] at h
    obtain ⟨rfl, rfl⟩ := h
    obtain ⟨e₁, k₁⟩ := hw.next_of hp (by decide)
    exact ⟨#[], [w.advance.current], rfl, e₁, .noArguments k₁⟩
  · rw [if_neg (by simp [hp]), clean_advance_bind, clean_bind] at h
    obtain ⟨first, w₁, hf, h⟩ := h
    rw [clean_remaining_bind, clean_bind] at h
    obtain ⟨all, w₂, hm, h⟩ := h
    rw [clean_expect_bind, if_pos rfl, clean_pure] at h
    obtain ⟨hp, rfl, rfl⟩ := h
    have e₁ := hw.ahead_eq (by simp [hk])
    obtain ⟨hw₁, ts, ht, hr⟩ := hs.expression (by decide) hw.advance hf
    have hw₂ := hm.ended hw₁
    obtain ⟨e₂, k₂⟩ := hw₂.next_of hp (by decide)
    obtain ⟨ns, us, hall, hu, hrest⟩ :=
      moreArguments_sound hs hw₁ (Nat.le_refl _) hm (hw₂.follow_eq hp)
    refine ⟨all, ts ++ (us ++ [w₂.advance.current]), rfl, ?_, ?_⟩
    · rw [e₁, ht, hu, e₂, Window.tokens]
      simp
    · rw [hall]
      refine .arguments ?_ (hrest _ k₂ _)
      rw [Window.follow, hu, firstKind_append, ← Window.follow, hw₂.follow_eq hp] at hr
      rwa [firstKind_append, firstKind_cons, k₂]

/-- A call has the callee it was given and the arguments that are read behind it. -/
theorem call_sound (hs : Sound self) {callee : Node} (hw : w.Ended)
    (hk : w.current.kind = .leftParen) (h : Clean (call self callee) w n w') :
    ∃ span args ts, n = .call span callee args ∧ w.tokens = w.current :: (ts ++ w'.ahead) ∧
      Reads (.arguments args) ts w'.follow := by
  rw [call, @clean_bind _ _ _ _ _ _ _ (fun all => by cases all <;> infer_instance)] at h
  obtain ⟨r, w₁, ha, h⟩ := h
  obtain ⟨all, ts, rfl, he, hr⟩ := arguments_sound hs hw hk ha
  rw [clean_spanOver_bind, clean_pure] at h
  obtain ⟨rfl, rfl⟩ := h
  exact ⟨_, all.toList, ts, rfl, by rw [Window.tokens, he], hr⟩

/-- An operator has the left operand it was given and a right one that is read behind it. -/
theorem infixed_sound (hs : Sound self) {left : Node} (hw : w.Ended)
    (hk : 1 < w.current.kind.strength) (h : Clean (infixed self left) w n w') :
    ∃ span right ts, n = .binary span left w.current.text right ∧
      w.tokens = w.current :: (ts ++ w'.ahead) ∧
      Reads (.expression w.current.kind.strength right) ts w'.follow := by
  rw [infixed, clean_current_bind, clean_advance_bind, clean_bind] at h
  obtain ⟨right, w₁, hr, h⟩ := h
  have e₁ := hw.ahead_eq (fun he => by rw [he] at hk; exact absurd hk (by decide))
  obtain ⟨-, ts, ht, hr⟩ := hs.expression (by omega) hw.advance hr
  rw [if_neg (by simp [show right.isMissing = false from hr.present]), clean_spanOver_bind,
    clean_pure] at h
  obtain ⟨rfl, rfl⟩ := h
  exact ⟨_, right, ts, rfl, by rw [Window.tokens, e₁, ht], hr⟩

/-- Each round takes an operator or a call, and what the loop stops at binds no more strongly. -/
theorem operators_sound (hs : Sound self) {above m : Nat} {left : Node} (ha : 1 ≤ above)
    (hw : w.Ended) (hm : w.ahead.length ≤ m) (hl : left.isMissing = false)
    (h : Clean (operators self above left m) w n w') :
    ∃ ts, w.ahead = ts ++ w'.ahead ∧ Reads (.operators above left n) ts w'.follow := by
  induction m generalizing left w with
  | zero =>
    rw [operators, clean_pure] at h
    obtain ⟨rfl, rfl⟩ := h
    refine ⟨[], rfl, .stop ?_⟩
    -- no token is left, so the end of the text follows
    rw [Window.follow, List.length_eq_zero_iff.1 (Nat.le_zero.1 hm)]
    exact ha
  | succ m ih =>
    rw [operators, clean_next_bind] at h
    by_cases hk : w.next.kind.strength ≤ above
    · rw [if_pos (.inr hk), clean_pure] at h
      obtain ⟨rfl, rfl⟩ := h
      refine ⟨[], rfl, .stop ?_⟩
      rwa [hw.follow_eq rfl]
    obtain ⟨e₁, k₁⟩ := hw.next_of rfl (fun he => by rw [he] at hk; exact hk ha)
    have hstrong : above < w.advance.current.kind.strength := by rw [k₁]; omega
    rw [if_neg (by simp [hl, hk]), clean_advance_bind] at h
    dsimp only at h
    by_cases hp : w.next.kind = .leftParen
    · rw [if_pos hp, clean_bind] at h
      obtain ⟨left', w₁, hl', h⟩ := h
      obtain ⟨ts, ht, o, us, span, args, rfl, rfl, hr⟩ :=
        hs (.call left) _ _ _ hw.advance (k₁.trans hp) hl'
      obtain ⟨rfl, hu⟩ := List.cons.inj ht
      -- the call has taken tokens, so the bound is large enough for the rest
      have hlen := congrArg List.length hu
      rw [List.append_eq, List.length_append] at hlen
      have hahead := congrArg List.length e₁
      rw [Window.tokens, List.length_cons] at hahead
      obtain ⟨vs, hv, hrest⟩ := ih (hl'.ended hw.advance) (by omega) rfl h
      refine ⟨w.advance.current :: (us ++ vs), by rw [e₁, Window.tokens, hu, hv]; simp, ?_⟩
      refine .call hstrong (k₁.trans hp) ?_ hrest
      rwa [Window.follow, hv, firstKind_append] at hr
    · rw [if_neg hp, clean_bind] at h
      obtain ⟨left', w₁, hl', h⟩ := h
      obtain ⟨span, right, ts, rfl, ht, hr⟩ := infixed_sound hs hw.advance (by omega) hl'
      have hlen := congrArg List.length ht
      rw [← e₁, List.length_cons, List.length_append] at hlen
      obtain ⟨us, hu, hrest⟩ := ih (hl'.ended hw.advance) (by omega) rfl h
      refine ⟨w.advance.current :: (ts ++ us), by rw [e₁, ht, hu]; simp, ?_⟩
      refine .infixed hstrong (by rw [k₁]; exact hp) ?_ hrest
      rwa [Window.follow, hu, firstKind_append] at hr

/-- A function is read keyword, parameters and body in turn. -/
theorem function_sound (hs : Sound self) (hw : w.Ended) (hk : w.current.kind = .functionWord)
    (h : Clean (function self) w n w') :
    ∃ ts, w.tokens = ts ++ w'.ahead ∧ Reads (.operand n) ts w'.follow := by
  rw [function, clean_current_bind, clean_past,
    @clean_bind _ _ _ _ _ _ _ (fun all => by cases all <;> infer_instance)] at h
  obtain ⟨ho, r, w₁, hps, h⟩ := h
  obtain ⟨e₁, k₁⟩ := hw.next_of ho (by decide)
  obtain ⟨all, ps, rfl, he, hnames⟩ := parameters_sound hw.advance hps
  rw [clean_past, clean_bind] at h
  obtain ⟨hb, body, w₂, hbody, h⟩ := h
  rw [clean_spanFrom_bind, clean_pure] at h
  obtain ⟨rfl, rfl⟩ := h
  have hw₁ := hps.ended hw.advance
  obtain ⟨e₂, k₂⟩ := hw₁.next_of hb (by decide)
  obtain ⟨-, ts, ht, hr⟩ := hs.block hw₁.advance k₂ hbody
  refine ⟨w.current :: w.advance.current :: (ps ++ ts), ?_, .function hk k₁ hnames hr⟩
  rw [Window.tokens, e₁, Window.tokens, he, e₂, ht]
  simp

/-- A condition in parentheses, in front of a block. -/
theorem condition_sound (hs : Sound self) {f : Node → Parser Node}
    [∀ condition, Along Window.Leads (f condition)] (hw : w.Ended)
    (h : Clean (past .leftParen do
      advance
      let condition ← self (.expression lowest)
      past .rightParen <| past .leftBrace (f condition)) w n w') :
    ∃ condition o c ts w₁, w₁.Ended ∧ w.ahead = o :: (ts ++ c :: w₁.tokens) ∧
      o.kind = .leftParen ∧ Reads (.expression lowest condition) ts .rightParen ∧
      c.kind = .rightParen ∧ w₁.current.kind = .leftBrace ∧ Clean (f condition) w₁ n w' := by
  rw [clean_past, clean_advance_bind, clean_bind] at h
  obtain ⟨ho, condition, w₁, hc, h⟩ := h
  rw [clean_past, clean_past] at h
  obtain ⟨hp, hb, h⟩ := h
  obtain ⟨e₁, k₁⟩ := hw.next_of ho (by decide)
  have e₂ := hw.advance.ahead_eq (by simp [k₁])
  obtain ⟨hw₁, ts, ht, hr⟩ := hs.expression (by decide) hw.advance.advance hc
  obtain ⟨e₃, k₃⟩ := hw₁.next_of hp (by decide)
  obtain ⟨e₄, k₄⟩ := hw₁.advance.next_of hb (by decide)
  rw [hw₁.follow_eq hp] at hr
  refine ⟨condition, w.advance.current, w₁.advance.current, ts, w₁.advance.advance,
    hw₁.advance.advance, ?_, k₁, hr, k₃, k₄, h⟩
  rw [e₁, Window.tokens, e₂, ht, e₃, Window.tokens, e₄]

/-- A conditional is read with whichever of its three endings was taken. -/
theorem conditional_sound (hs : Sound self) (hw : w.Ended) (hk : w.current.kind = .ifWord)
    (h : Clean (conditional self) w n w') :
    ∃ ts, w.tokens = ts ++ w'.ahead ∧ Reads (.conditional n) ts w'.follow := by
  rw [conditional_eq, clean_current_bind] at h
  obtain ⟨condition, o, c, ts, w₁, hw₁, ha, ho, hcond, hc, hb, h⟩ := condition_sound hs hw h
  rw [clean_bind] at h
  obtain ⟨consequence, w₂, hcons, h⟩ := h
  obtain ⟨hw₂, us, hu, hbl⟩ := hs.block hw₁ hb hcons
  have htokens : w.tokens = w.current :: o :: (ts ++ c :: (us ++ w₂.ahead)) := by
    rw [Window.tokens, ha, hu]
  rw [conditionalRest] at h
  dsimp only at h
  rw [clean_nextIs_bind] at h
  by_cases he : w₂.next.kind = .elseWord
  · obtain ⟨e₃, k₃⟩ := hw₂.next_of he (by decide)
    rw [hw₂.follow_eq he] at hbl
    rw [if_pos (decide_eq_true he), clean_advance_bind, clean_nextIs_bind] at h
    by_cases hi : w₂.advance.next.kind = .ifWord
    -- the other conditional becomes the only statement of a block
    · rw [if_pos (decide_eq_true hi), clean_advance_bind, clean_bind] at h
      obtain ⟨nested, w₃, hn, h⟩ := h
      obtain ⟨e₄, k₄⟩ := hw₂.advance.next_of hi (by decide)
      obtain ⟨vs, hv, hnested⟩ := hs .conditional _ _ _ hw₂.advance.advance k₄ hn
      have hpresent : nested.isMissing = false := Reads.present (r := .conditional nested) hnested
      rw [if_neg (by simp [hpresent]), clean_spanFrom_bind, clean_pure] at h
      obtain ⟨rfl, rfl⟩ := h
      refine ⟨w.current :: o :: (ts ++ c :: (us ++ w₂.advance.current :: vs)), ?_,
        .elseIf hk ho hcond hc hbl k₃ hnested⟩
      rw [htokens, e₃, Window.tokens, e₄, hv]
      simp
    · rw [if_neg (by simp [hi]), clean_past, clean_bind] at h
      obtain ⟨hb', alternative, w₃, ha, h⟩ := h
      rw [clean_spanFrom_bind, clean_pure] at h
      obtain ⟨rfl, rfl⟩ := h
      obtain ⟨e₄, k₄⟩ := hw₂.advance.next_of hb' (by decide)
      obtain ⟨-, vs, hv, halt⟩ := hs.block hw₂.advance.advance k₄ ha
      refine ⟨w.current :: o :: (ts ++ c :: (us ++ w₂.advance.current :: vs)), ?_,
        .ifElse hk ho hcond hc hbl k₃ halt⟩
      rw [htokens, e₃, Window.tokens, e₄, hv]
      simp
  · rw [if_neg (by simp [he]), clean_spanFrom_bind, clean_pure] at h
    obtain ⟨rfl, rfl⟩ := h
    refine ⟨w.current :: o :: (ts ++ c :: us), ?_, .ifOnly hk ho hcond hc hbl ?_⟩
    · rw [htokens]
      simp
    · rwa [hw₂.follow_eq rfl]

/-- An operand is read as the rule that its first token chose says. -/
theorem operand_sound (hs : Sound self) (hw : w.Ended) (h : Clean (operand self) w n w') :
    ∃ ts, w.tokens = ts ++ w'.ahead ∧ Reads (.operand n) ts w'.follow := by
  rw [operand, clean_current_bind] at h
  split at h
  · next hk =>
    rw [clean_pure] at h
    obtain ⟨rfl, rfl⟩ := h
    exact ⟨[w'.current], rfl, .identifier hk⟩
  · next hk =>
    unfold integerLiteral at h
    by_cases hl : maxDigits < w.current.text.length
    · rw [if_pos hl] at h
      exact absurd h not_clean_throw
    · rw [if_neg hl, clean_pure] at h
      obtain ⟨rfl, rfl⟩ := h
      exact ⟨[w'.current], rfl, .integer hk (Nat.le_of_not_lt hl)⟩
  · next hk => exact signed_sound hs hw (.inl hk) h
  · next hk => exact signed_sound hs hw (.inr hk) h
  · next hk => exact grouped_sound hs hw hk h
  · next hk =>
    obtain ⟨ts, ht, hr⟩ := conditional_sound hs hw hk h
    exact ⟨ts, ht, .choice hr⟩
  · next hk => exact function_sound hs hw hk h
  · exact absurd h not_clean_note_bind
  · exact absurd h not_clean_note_bind

/-- An expression is read as its operand and the operators behind it. -/
theorem expression_sound (hs : Sound self) {above : Nat} (ha : 1 ≤ above) (hw : w.Ended)
    (h : Clean (expression self above) w n w') :
    ∃ ts, w.tokens = ts ++ w'.ahead ∧ Reads (.expression above n) ts w'.follow := by
  rw [expression, clean_bind] at h
  obtain ⟨left, w₁, hl, h⟩ := h
  obtain ⟨ts, ht, hleft⟩ := operand_sound hs hw hl
  rw [clean_remaining_bind] at h
  obtain ⟨us, hu, hr⟩ :=
    operators_sound hs ha (hl.ended hw) (Nat.le_refl _) hleft.present h
  refine ⟨ts ++ us, by rw [ht, hu, List.append_assoc], .expression ?_ hr⟩
  rwa [Window.follow, hu, firstKind_append] at hleft

/-! ### Statements -/

/-- What may stand behind a binding: nothing, or a semicolon if there is one. -/
theorem terminator_sound (hw : w.Ended) (h : Clean terminator w () w') :
    ∃ ts, w.ahead = ts ++ w'.ahead ∧ Terminator ts w'.follow := by
  rw [terminator, clean_nextIs_bind] at h
  by_cases hs : w.next.kind = .semicolon
  · rw [if_pos (decide_eq_true hs)] at h
    obtain ⟨e₁, k₁⟩ := hw.next_of hs (by decide)
    obtain ⟨hrun, -⟩ := h
    rw [advance_apply] at hrun
    injection hrun with _ hrun
    subst hrun
    exact ⟨[w.advance.current], e₁, .semicolon k₁⟩
  · rw [if_neg (by simp [hs]), clean_pure] at h
    obtain ⟨-, rfl⟩ := h
    exact ⟨[], rfl, .omitted (by rwa [hw.follow_eq rfl])⟩

/-- A declaration is read in front of whatever ends it. -/
theorem declaration_sound (hs : Sound self) {finish : Parser Unit} [Along Window.Leads finish]
    (hw : w.Ended) (hk : w.current.kind = .letWord) (h : Clean (declaration self finish) w n w') :
    ∃ ts w₁, w₁.Ended ∧ w.tokens = ts ++ w₁.ahead ∧ Reads (.binding n) ts w₁.follow ∧
      Clean finish w₁ () w' := by
  rw [declaration, clean_current_bind, clean_past, clean_current_bind] at h
  dsimp only at h
  rw [clean_past, clean_advance_bind, clean_bind] at h
  obtain ⟨hi, ha, value, w₁, hv, h⟩ := h
  rw [clean_bind] at h
  obtain ⟨⟨⟩, w₂, hf, h⟩ := h
  rw [clean_spanFrom_bind, clean_pure] at h
  obtain ⟨rfl, rfl⟩ := h
  obtain ⟨e₁, k₁⟩ := hw.next_of hi (by decide)
  obtain ⟨e₂, k₂⟩ := hw.advance.next_of ha (by decide)
  have e₃ := hw.advance.advance.ahead_eq (by simp [k₂])
  obtain ⟨hw₁, ts, ht, hr⟩ := hs.expression (by decide) hw.advance.advance.advance hv
  refine ⟨w.current :: w.advance.current :: w.advance.advance.current :: ts, w₁, hw₁, ?_,
    .declaration hk k₁ k₂ hr, hf⟩
  rw [Window.tokens, e₁, Window.tokens, e₂, Window.tokens, e₃, ht]
  rfl

/-- An assignment is read in front of whatever ends it. -/
theorem assignment_sound (hs : Sound self) {finish : Parser Unit} [Along Window.Leads finish]
    (hw : w.Ended) (hk : w.current.kind = .identifier)
    (h : Clean (assignment self finish) w n w') :
    ∃ ts w₁, w₁.Ended ∧ w.tokens = ts ++ w₁.ahead ∧ Reads (.binding n) ts w₁.follow ∧
      Clean finish w₁ () w' := by
  rw [assignment, clean_current_bind, clean_past, clean_advance_bind, clean_bind] at h
  obtain ⟨ha, value, w₁, hv, h⟩ := h
  rw [clean_bind] at h
  obtain ⟨⟨⟩, w₂, hf, h⟩ := h
  rw [clean_spanFrom_bind, clean_pure] at h
  obtain ⟨rfl, rfl⟩ := h
  obtain ⟨e₁, k₁⟩ := hw.next_of ha (by decide)
  have e₂ := hw.advance.ahead_eq (by simp [k₁])
  obtain ⟨hw₁, ts, ht, hr⟩ := hs.expression (by decide) hw.advance.advance hv
  refine ⟨w.current :: w.advance.current :: ts, w₁, hw₁, ?_, .assignment hk k₁ hr, hf⟩
  rw [Window.tokens, e₁, Window.tokens, e₂, ht]
  rfl

/-- A clause of a counting loop is read as a declaration or an assignment. -/
theorem clause_sound (hs : Sound self) {name : String} (hw : w.Ended)
    (h : Clean (clause self name) w n w') :
    w'.Ended ∧ ∃ ts, w.tokens = ts ++ w'.ahead ∧ Reads (.binding n) ts w'.follow := by
  refine ⟨h.ended hw, ?_⟩
  rw [clause, clean_current_bind] at h
  by_cases hl : w.current.kind = .letWord
  · rw [if_pos hl] at h
    obtain ⟨ts, w₁, -, ht, hr, hf⟩ := declaration_sound hs hw hl h
    obtain ⟨-, rfl⟩ := clean_pure.1 hf
    exact ⟨ts, ht, hr⟩
  rw [if_neg hl, clean_next_bind] at h
  by_cases ha : w.current.kind = .identifier ∧ w.next.kind = .assign
  · rw [if_pos ha] at h
    obtain ⟨ts, w₁, -, ht, hr, hf⟩ := assignment_sound hs hw ha.1 h
    obtain ⟨-, rfl⟩ := clean_pure.1 hf
    exact ⟨ts, ht, hr⟩
  · rw [if_neg ha] at h
    exact absurd h not_clean_note_bind

/-- A binding together with the semicolon behind it. -/
theorem terminated_sound {w₁ : Window} {ts : List Token} (hw₁ : w₁.Ended)
    (ht : w.tokens = ts ++ w₁.ahead) (hr : Reads (.binding n) ts w₁.follow)
    (hf : Clean terminator w₁ () w') :
    ∃ ts, w.tokens = ts ++ w'.ahead ∧ Reads (.statement n) ts w'.follow := by
  obtain ⟨us, hu, hend⟩ := terminator_sound hw₁ hf
  refine ⟨ts ++ us, by rw [ht, hu, List.append_assoc], .binding ?_ hend⟩
  rwa [Window.follow, hu, firstKind_append] at hr

/-- An expression and the semicolon behind it are read as a statement. -/
theorem expressionStatement_sound (hs : Sound self) (hw : w.Ended)
    (hk : w.current.kind = .identifier → w.next.kind ≠ .assign)
    (h : Clean (expressionStatement self) w n w') :
    ∃ ts, w.tokens = ts ++ w'.ahead ∧ Reads (.statement n) ts w'.follow := by
  rw [expressionStatement, clean_current_bind, clean_bind] at h
  obtain ⟨value, w₁, hv, h⟩ := h
  obtain ⟨hw₁, ts, ht, hr⟩ := hs.expression (by decide) hw hv
  rw [if_neg (by simp [show value.isMissing = false from hr.present]), clean_bind] at h
  obtain ⟨⟨⟩, w₂, hf, h⟩ := h
  rw [clean_spanFrom_bind, clean_pure] at h
  obtain ⟨rfl, rfl⟩ := h
  obtain ⟨us, hu, hend⟩ := terminator_sound hw₁ hf
  refine ⟨ts ++ us, by rw [ht, hu, List.append_assoc], .expressionStatement ?_ hend ?_⟩
  · rwa [Window.follow, hu, firstKind_append] at hr
  · -- the second token of the statement is the next one at its start
    obtain ⟨t, rest, rfl⟩ := List.exists_cons_of_ne_nil (hr.ne_nil trivial)
    rw [hu, ← List.append_assoc] at ht
    obtain ⟨hcur, hahead⟩ := List.cons.inj ht
    intro hi
    rw [hw.next_kind, hahead, List.append_eq, firstKind_append, ← Window.follow] at hk
    exact hk (hcur ▸ hi)

/-- A loop is read condition and body in turn. -/
theorem whileLoop_sound (hs : Sound self) (hw : w.Ended) (hk : w.current.kind = .whileWord)
    (h : Clean (whileLoop self) w n w') :
    ∃ ts, w.tokens = ts ++ w'.ahead ∧ Reads (.statement n) ts w'.follow := by
  rw [whileLoop, clean_current_bind] at h
  obtain ⟨condition, o, c, ts, w₁, hw₁, ha, ho, hcond, hc, hb, h⟩ := condition_sound hs hw h
  rw [clean_bind] at h
  obtain ⟨body, w₂, hbody, h⟩ := h
  rw [clean_spanFrom_bind, clean_pure] at h
  obtain ⟨rfl, rfl⟩ := h
  obtain ⟨-, us, hu, hbl⟩ := hs.block hw₁ hb hbody
  refine ⟨w.current :: o :: (ts ++ c :: us), ?_, .whileLoop hk ho hcond hc hbl⟩
  rw [Window.tokens, ha, hu]
  simp

/-- A counting loop is read clause by clause and then its body. -/
theorem forLoop_sound (hs : Sound self) (hw : w.Ended) (hk : w.current.kind = .forWord)
    (h : Clean (forLoop self) w n w') :
    ∃ ts, w.tokens = ts ++ w'.ahead ∧ Reads (.statement n) ts w'.follow := by
  rw [forLoop_eq, clean_current_bind, clean_past, clean_advance_bind, clean_bind] at h
  obtain ⟨ho, init, w₁, hinit, h⟩ := h
  obtain ⟨e₁, k₁⟩ := hw.next_of ho (by decide)
  have e₂ := hw.advance.ahead_eq (by simp [k₁])
  obtain ⟨hw₁, ts, ht, hi⟩ := clause_sound hs hw.advance.advance hinit
  rw [forRest, if_neg (by simp [show init.isMissing = false from hi.present]), clean_past,
    clean_advance_bind, clean_bind] at h
  obtain ⟨hs₁, condition, w₂, hc, h⟩ := h
  obtain ⟨e₃, k₃⟩ := hw₁.next_of hs₁ (by decide)
  have e₄ := hw₁.advance.ahead_eq (by simp [k₃])
  obtain ⟨hw₂, us, hu, hcond⟩ := hs.expression (by decide) hw₁.advance.advance hc
  rw [clean_past, clean_advance_bind, clean_bind] at h
  obtain ⟨hs₂, post, w₃, hpost, h⟩ := h
  obtain ⟨e₅, k₅⟩ := hw₂.next_of hs₂ (by decide)
  have e₆ := hw₂.advance.ahead_eq (by simp [k₅])
  obtain ⟨hw₃, vs, hv, hp⟩ := clause_sound hs hw₂.advance.advance hpost
  rw [forBody, if_neg (by simp [show post.isMissing = false from hp.present]), clean_past,
    clean_past, clean_bind] at h
  obtain ⟨hcl, hb, body, w₄, hbody, h⟩ := h
  rw [clean_spanFrom_bind, clean_pure] at h
  obtain ⟨rfl, rfl⟩ := h
  obtain ⟨e₇, k₇⟩ := hw₃.next_of hcl (by decide)
  obtain ⟨e₈, k₈⟩ := hw₃.advance.next_of hb (by decide)
  obtain ⟨-, xs, hx, hbl⟩ := hs.block hw₃.advance.advance k₈ hbody
  rw [hw₁.follow_eq hs₁] at hi
  rw [hw₂.follow_eq hs₂] at hcond
  rw [hw₃.follow_eq hcl] at hp
  refine ⟨w.current :: w.advance.current :: (ts ++ w₁.advance.current :: (us ++
    w₂.advance.current :: (vs ++ w₃.advance.current :: xs))), ?_,
    .forLoop hk k₁ hi k₃ hcond k₅ hp k₇ hbl⟩
  rw [Window.tokens, e₁, Window.tokens, e₂, ht, e₃, Window.tokens, e₄, hu, e₅, Window.tokens, e₆,
    hv, e₇, Window.tokens, e₈, hx]
  simp

/-- A statement is read as the rule that its first tokens chose says. -/
theorem statement_sound (hs : Sound self) (hw : w.Ended) (h : Clean (statement self) w n w') :
    ∃ ts, w.tokens = ts ++ w'.ahead ∧ Reads (.statement n) ts w'.follow := by
  rw [statement, clean_current_bind] at h
  split at h
  · next hk =>
    obtain ⟨ts, w₁, hw₁, ht, hr, hf⟩ := declaration_sound hs hw hk h
    exact terminated_sound hw₁ ht hr hf
  · next hk => exact whileLoop_sound hs hw hk h
  · next hk => exact forLoop_sound hs hw hk h
  · next hk =>
    rw [clean_nextIs_bind] at h
    by_cases ha : w.next.kind = .assign
    · rw [if_pos (decide_eq_true ha)] at h
      obtain ⟨ts, w₁, hw₁, ht, hr, hf⟩ := assignment_sound hs hw hk h
      exact terminated_sound hw₁ ht hr hf
    · rw [if_neg (by simp [ha])] at h
      exact expressionStatement_sound hs hw (fun _ => ha) h
  · next hk => exact expressionStatement_sound hs hw (fun hi => absurd hi hk) h

/-! ### Blocks -/

/-- The statements of a block are read up to the closing brace, by induction on the bound of the
loop. -/
theorem blockStatements_sound (hs : Sound self) {opening : Token} {m : Nat}
    {found r : Array Node} (hw : w.Ended) (hm : w.ahead.length < m)
    (h : Clean (blockStatements self opening found m) w r w') :
    w'.current.kind = .rightBrace ∧ ∃ ns ts, r.toList = found.toList ++ ns ∧
      w.tokens = ts ++ w'.tokens ∧ Reads (.statements ns) ts .rightBrace := by
  induction m generalizing found w with
  | zero => exact absurd hm (Nat.not_lt_zero _)
  | succ m ih =>
    rw [blockStatements, clean_current_bind] at h
    by_cases hb : w.current.kind = .rightBrace
    · rw [if_pos hb, clean_pure] at h
      obtain ⟨rfl, rfl⟩ := h
      exact ⟨hb, [], [], by simp, rfl, .noStatements⟩
    by_cases he : w.current.kind = .endOfText
    · rw [if_neg hb, if_pos he] at h
      exact absurd h not_clean_note_bind
    rw [if_neg hb, if_neg he, clean_bind] at h
    obtain ⟨statement, w₁, hst, h⟩ := h
    rw [clean_advance_bind] at h
    obtain ⟨ts, ht, hr⟩ := hs .statement _ _ _ hw trivial hst
    have hpresent : statement.isMissing = false := Reads.present (r := .statement statement) hr
    rw [if_neg (by simp [hpresent])] at h
    have hlen := congrArg List.length ht
    rw [Window.tokens, List.length_cons, List.length_append] at hlen
    have hpos := List.length_pos_iff.2 (Reads.ne_nil (r := .statement statement) hr trivial)
    have hw₁ := hst.ended hw
    have hahead := congrArg List.length (hw.ahead_eq he)
    rw [Window.tokens, List.length_cons] at hahead
    have hm₁ : w₁.advance.ahead.length < m := by
      rw [Window.advance_ahead_length]
      omega
    obtain ⟨hend, ns, us, hall, hu, hrest⟩ := ih hw₁.advance hm₁ h
    -- at the end of the text there would be no closing brace to come to
    have e₁ : w₁.ahead = w₁.advance.tokens := by
      refine (Window.tokens_advance fun hnil => ?_).1
      have hlast : w'.ahead = [] := by
        have hle := congrArg List.length hu
        rw [Window.tokens, Window.tokens, List.length_append, List.length_cons, List.length_cons,
          Window.advance_ahead_length, hnil] at hle
        exact List.length_eq_zero_iff.1 (by simp only [List.length_nil] at hle; omega)
      have := (h.ended hw₁.advance).current_kind hlast
      rw [hend] at this
      exact absurd this (by decide)
    refine ⟨hend, statement :: ns, ts ++ us, ?_, by rw [ht, e₁, hu, List.append_assoc],
      .statements ?_ hrest⟩
    · rw [hall, Array.toList_push, List.append_assoc, List.singleton_append]
    · rw [Window.follow, e₁, hu, firstKind_append] at hr
      rwa [Window.tokens, firstKind_cons, hend] at hr

/-- A block is read from brace to brace. -/
theorem block_sound (hs : Sound self) (hw : w.Ended) (hk : w.current.kind = .leftBrace)
    (h : Clean (block self) w n w') :
    ∃ ts, w.tokens = ts ++ w'.ahead ∧ Reads (.block n) ts w'.follow := by
  rw [block, clean_current_bind, clean_advance_bind, clean_remaining_bind, clean_bind] at h
  obtain ⟨found, w₁, hst, h⟩ := h
  rw [clean_spanFrom_bind, clean_pure] at h
  obtain ⟨rfl, rfl⟩ := h
  have e₁ := hw.ahead_eq (by simp [hk])
  obtain ⟨hend, ns, ts, hall, ht, hr⟩ :=
    blockStatements_sound hs hw.advance (Nat.lt_succ_self _) hst
  refine ⟨w.current :: (ts ++ [w'.current]), ?_, ?_⟩
  · rw [Window.tokens, e₁, ht, Window.tokens]
    simp
  · rw [hall]
    exact .block hk hr hend

end

end Parser

/-! ## All phrases -/

open Ember.Parser in
/-- **A clean parse of a phrase reads it.** -/
theorem parsePhrase_sound : ∀ depth, Sound (parsePhrase depth)
  | 0, _, w, _, _, _, _, h => absurd h (not_clean_throw (w := w))
  | 1, .statement, w, _, _, _, _, h => absurd h (not_clean_throw (w := w))
  | 1, .expression _, w, _, _, _, _, h => absurd h (not_clean_throw (w := w))
  | depth + 2, .statement, _, _, _, hw, _, h => statement_sound (parsePhrase_sound depth) hw h
  | depth + 2, .expression _, _, _, _, hw, ha, h =>
    expression_sound (parsePhrase_sound depth) ha hw h
  | depth + 1, .block, _, _, _, hw, hk, h => block_sound (parsePhrase_sound depth) hw hk h
  | depth + 1, .conditional, _, _, _, hw, hk, h =>
    conditional_sound (parsePhrase_sound depth) hw hk h
  | depth + 1, .call _, w, _, _, hw, hk, h => by
    obtain ⟨span, args, ts, hn, ht, hr⟩ := call_sound (parsePhrase_sound depth) hw hk h
    exact ⟨w.current :: ts, ht, w.current, ts, span, args, rfl, hn, hr⟩

end Ember

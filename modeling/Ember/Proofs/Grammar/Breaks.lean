import Ember.Proofs.Grammar.Blame

/-!
# Every rule finds its first problem where it is

Each rule is followed up to its first problem: what stands before was read without one, so
it is known what is expected of the tokens ahead, and the problem is noted at the token that
breaks it. The loops need no bound here, since a loop that has come to its bound notes
nothing.
-/

namespace Ember

variable {K : Expected} {p : Problem} {w w₁ : Window} {above : Nat}

/-- What is expected where a phrase starts. -/
def Phrase.Expects (K : Expected) : Phrase → Expected
  | .statement => Has .statement K
  | .block => Has .block K
  | .expression above => Has (.expression above) K
  | .conditional => Has .conditional K
  | .call _ => Takes .leftParen (Has .arguments K)

/-- What is expected behind a phrase may close it. -/
def Phrase.Closable (K : Expected) : Phrase → Prop
  | .statement => Endable K
  | _ => Ember.Closable K

namespace Parser

/-- The rules note their first problem where what is expected breaks. -/
def Breaks (self : Phrase → Parser Node) : Prop :=
  ∀ phrase (w : Window) p K, w.Ended → phrase.Ready w → phrase.Closable K →
    Notes (self phrase) w p → Broken (phrase.Expects K) w.tokens p

/-! ## Tokens -/

/-- A token that is missing is not the problem of an invalid clause. -/
theorem unexpected_code (kind : Kind) (token : Token) : (unexpected kind token).code ≠ "E105" := by
  unfold unexpected
  split <;> simp [SyntaxCause.code]

/-- A problem at a token that is missing, or behind it. -/
theorem broken_expect {α : Type} {kind : Kind} {f : Bool → Parser α}
    [∀ b, Along Window.Leads (f b)] (hw : w.Ended) (hne : w.ahead ≠ []) (hk : kind ≠ .endOfText)
    (hK : ∃ us, K us) (h : Notes (expect kind >>= f) w p)
    (hmore : w.advance.Ended → w.advance.ahead ≠ [] → Notes (f true) w.advance p →
      Broken K w.advance.ahead p) : Broken (Takes kind K) w.ahead p := by
  obtain ⟨e, hc⟩ := Window.tokens_advance hne
  rw [e, Window.tokens, hc]
  rcases notes_expect_bind h with ⟨hkind, hcause, hspan⟩ | ⟨hkind, h⟩
  · exact .missing hkind hspan (by rw [hcause]; exact unexpected_code _ _) hK
  · have hahead := hw.advance.ahead_ne_nil (by rwa [hc, hkind])
    exact (hmore hw.advance hahead h).cons fun us => takes_cons_of_kind hkind

/-- A problem at a token that has to be there, or behind it. -/
theorem broken_past {kind : Kind} {more : Parser Node} [Along Window.Leads more] (hw : w.Ended)
    (hne : w.ahead ≠ []) (hk : kind ≠ .endOfText) (hK : ∃ us, K us) (h : Notes (past kind more) w p)
    (hmore : w.advance.Ended → w.advance.ahead ≠ [] → Notes more w.advance p →
      Broken K w.advance.ahead p) : Broken (Takes kind K) w.ahead p :=
  broken_expect hw hne hk hK h hmore

/-- A problem at a brace that is missing, or in the block or behind it. -/
theorem broken_brace {more : Parser Node} [Along Window.Leads more] (hw : w.Ended)
    (hne : w.ahead ≠ []) (hK : ∃ us, K us) (h : Notes (past .leftBrace more) w p)
    (hmore : w.advance.Ended → w.advance.current.kind = .leftBrace → Notes more w.advance p →
      Broken (Has .block K) w.advance.tokens p) : Broken (Has .block K) w.ahead p := by
  obtain ⟨e, hc⟩ := Window.tokens_advance hne
  rcases notes_past h with ⟨hkind, hcause, hspan⟩ | ⟨hkind, h⟩
  · rw [e, Window.tokens, hc]
    refine .rejected hspan (fun h => unexpected_code _ _ (hcause ▸ h.1))
      (closable_block hK).possible fun vs => ?_
    rintro ⟨n, us, h, -⟩
    exact hkind (h.first trivial)
  · rw [e]
    exact hmore hw.advance (hc ▸ hkind) h

/-! ## Parameters -/

/-- Further parameters break at the first token that is neither a name behind a comma nor the
closing parenthesis. -/
theorem moreParameters_breaks {m : Nat} {found : Array Name} (hw : w.Ended) (hne : w.ahead ≠ [])
    (hK : ∃ us, K us) (h : Notes (moreParameters found m) w p) :
    Broken (HasMoreParameters K) w.ahead p := by
  induction m generalizing found w with
  | zero => exact absurd h not_notes_pure
  | succ m ih =>
    rw [moreParameters, notes_nextIs_bind] at h
    obtain ⟨e, hc⟩ := Window.tokens_advance hne
    by_cases hcomma : w.next.kind = .comma
    · rw [if_pos (decide_eq_true hcomma), notes_advance_bind] at h
      have hne₁ := hw.advance.ahead_ne_nil (by simp [hc, hcomma])
      have hbroken := broken_expect hw.advance hne₁ (by decide) (possible_moreParameters hK) h
        fun hw₂ hne₂ h => ih hw₂ hne₂ h
      rw [e, Window.tokens, hc]
      exact hbroken.cons fun us => hasMoreParameters_comma hcomma
    · rw [if_neg (by simp [hcomma])] at h
      have hbroken := broken_expect hw hne (by decide) hK h fun _ _ h => absurd h not_notes_pure
      refine hbroken.congr_first (q := (· ≠ .comma)) (fun us hus => (hasMoreParameters hus).symm) ?_
        fun us hus => ?_
      · rwa [← hw.next_kind]
      · rw [hus.firstKind]
        decide

/-- Parameters break at the first token that is not expected of them. -/
theorem parameters_breaks (hw : w.Ended) (hne : w.ahead ≠ []) (hK : ∃ us, K us)
    (h : Notes parameters w p) : Broken (HasParameters K) w.ahead p := by
  rw [parameters, notes_nextIs_bind] at h
  obtain ⟨e, hc⟩ := Window.tokens_advance hne
  by_cases hclose : w.next.kind = .rightParen
  · rw [if_pos (decide_eq_true hclose), notes_advance_bind] at h
    exact absurd h not_notes_pure
  · rw [if_neg (by simp [hclose])] at h
    have hbroken := broken_expect hw hne (by decide) (possible_moreParameters hK) h
      fun hw₁ hne₁ h => moreParameters_breaks hw₁ hne₁ hK h
    refine hbroken.congr_first (q := (· ≠ .rightParen)) (fun us hus => (hasParameters hus).symm) ?_
      fun us hus => ?_
    · rwa [← hw.next_kind]
    · rw [hus.firstKind]
      decide

section

variable {α : Type} {self : Phrase → Parser Node} [∀ phrase, Along Window.Leads (self phrase)]

/-! ## Phrases inside -/

/-- A problem in an expression, or behind it. -/
theorem Breaks.expression (hs : Sound self) (hb : Breaks self) {f : Node → Parser α}
    [∀ n, Along Window.Leads (f n)] (ha : 1 ≤ above) (hw : w.Ended) (hK : Closable K)
    (h : Notes (self (.expression above) >>= f) w p)
    (hf : ∀ n w₁, w₁.Ended → w₁.ahead ≠ [] → w₁.ahead.length ≤ w.ahead.length →
      n.isMissing = false → Notes (f n) w₁ p → Broken K w₁.ahead p) :
    Broken (Has (.expression above) K) w.tokens p := by
  rcases notes_bind h with h | ⟨n, w₁, hc, h⟩
  · exact hb (.expression above) w p K hw ha hK h
  · obtain ⟨hw₁, ts, ht, hr⟩ := hs.expression ha hw hc
    have hlen := congrArg List.length ht
    have hpos := List.length_pos_iff.2 (hr.ne_nil trivial)
    rw [Window.tokens, List.length_cons, List.length_append] at hlen
    have hbroken := hf n w₁ hw₁ (hr.ahead_ne_nil ha hw ht) (by omega) hr.present h
    exact hbroken.behind ⟨ts, ht, hr⟩ ha Leaves.expression_unique hK

/-- A problem in a block, or behind it. -/
theorem Breaks.block (hs : Sound self) (hb : Breaks self) {f : Node → Parser α}
    [∀ n, Along Window.Leads (f n)] (hw : w.Ended) (hk : w.current.kind = .leftBrace)
    (hK : Closable K) (h : Notes (self .block >>= f) w p)
    (hf : ∀ n w₁, w₁.Ended → w₁.ahead ≠ [] → Notes (f n) w₁ p → Broken K w₁.ahead p) :
    Broken (Has .block K) w.tokens p := by
  rcases notes_bind h with h | ⟨n, w₁, hc, h⟩
  · exact hb .block w p K hw hk hK h
  · obtain ⟨hw₁, ts, ht, hr⟩ := hs.block hw hk hc
    have hbroken := hf n w₁ hw₁ (hr.ahead_ne_nil trivial hw ht) h
    exact hbroken.behind ⟨ts, ht, hr⟩ trivial Leaves.block_unique hK

/-! ## Expressions -/

/-- Behind a sign what is expected of an operand breaks. -/
theorem signed_breaks (hs : Sound self) (hb : Breaks self) (hw : w.Ended)
    (hk : w.current.kind = .bang ∨ w.current.kind = .minus) (hK : Closable K)
    (h : Notes (signed self) w p) : Broken (Has .operand K) w.tokens p := by
  rw [signed, notes_current_bind, notes_advance_bind] at h
  have e := hw.ahead_eq (by rcases hk with hk | hk <;> simp [hk])
  have hbroken := hb.expression hs (by decide) hw.advance hK h fun n w₁ _ _ _ hn h => by
    rw [if_neg (by simp [hn])] at h
    exact absurd h not_notes_spanFrom_bind
  rw [Window.tokens, e]
  exact hbroken.cons fun us => has_operand_signed hk

/-- Behind a parenthesis an expression breaks, or the closing one is missing. -/
theorem grouped_breaks (hs : Sound self) (hb : Breaks self) (hw : w.Ended)
    (hk : w.current.kind = .leftParen) (hK : Closable K) (h : Notes (grouped self) w p) :
    Broken (Has .operand K) w.tokens p := by
  rw [grouped, notes_advance_bind] at h
  have e := hw.ahead_eq (by simp [hk])
  have hclose := closable_takes .rightParen (by decide) hK.possible
  have hbroken := hb.expression hs (by decide) hw.advance hclose h fun n w₁ hw₁ hne _ _ h =>
    broken_past hw₁ hne (by decide) hK.possible h fun _ _ h => absurd h not_notes_pure
  rw [Window.tokens, e]
  exact hbroken.cons fun us => has_operand_grouped hk

/-! ### Conditionals and functions -/

/-- A problem at the brace of a block, in the block, or behind it. -/
theorem Breaks.braced (hs : Sound self) (hb : Breaks self) {f : Node → Parser Node}
    [∀ body, Along Window.Leads (f body)] (hw : w.Ended) (hne : w.ahead ≠ []) (hK : Closable K)
    (h : Notes (past .leftBrace do f (← self .block)) w p)
    (hf : ∀ body w₁, w₁.Ended → w₁.ahead ≠ [] → Notes (f body) w₁ p → Broken K w₁.ahead p) :
    Broken (Has .block K) w.ahead p :=
  broken_brace hw hne hK.possible h fun hw₁ hk₁ h => hb.block hs hw₁ hk₁ hK h hf

/-- A problem in the parentheses around a condition, in the block that depends on it, or
behind that. -/
theorem Breaks.condition (hs : Sound self) (hb : Breaks self) {f : Node → Node → Parser Node}
    [∀ condition body, Along Window.Leads (f condition body)] (hw : w.Ended) (hne : w.ahead ≠ [])
    (hK : Closable K)
    (h : Notes (past .leftParen do
      advance
      let condition ← self (.expression lowest)
      past .rightParen <| past .leftBrace do f condition (← self .block)) w p)
    (hf : ∀ condition body w₁, w₁.Ended → w₁.ahead ≠ [] → Notes (f condition body) w₁ p →
      Broken K w₁.ahead p) :
    Broken (Takes .leftParen (Has (.expression lowest) (Takes .rightParen (Has .block K))))
      w.ahead p := by
  have hblock := (closable_block hK.possible).possible
  have hclose := closable_takes .rightParen (by decide) hblock
  refine broken_past hw hne (by decide) (hclose.expression (Nat.le_refl lowest)) h ?_
  intro hw₁ hne₁ h
  rw [notes_advance_bind] at h
  rw [(Window.tokens_advance hne₁).1]
  refine hb.expression hs (by decide) hw₁.advance hclose h fun condition w₂ hw₂ hne₂ _ _ h => ?_
  refine broken_past hw₂ hne₂ (by decide) hblock h fun hw₃ hne₃ h => ?_
  exact hb.braced hs hw₃ hne₃ hK h (hf condition)

/-- A problem behind `else`, or in another conditional there. -/
theorem Breaks.alternative (hs : Sound self) (hb : Breaks self) {f g : Node → Parser Node}
    [∀ n, Along Window.Leads (f n)] [∀ n, Along Window.Leads (g n)] (hw : w.Ended)
    (hne : w.ahead ≠ []) (hK : Closable K) (h : Notes (do
      if ← nextIs .ifWord then
        advance
        f (← self .conditional)
      else past .leftBrace do g (← self .block)) w p)
    (hf : ∀ n w, ¬ Notes (f n) w p) (hg : ∀ n w, ¬ Notes (g n) w p) :
    Broken (fun ts => Has .block K ts ∨ Has .conditional K ts) w.ahead p := by
  obtain ⟨e, hc⟩ := Window.tokens_advance hne
  rw [notes_nextIs_bind] at h
  by_cases hi : w.next.kind = .ifWord
  · rw [if_pos (decide_eq_true hi), notes_advance_bind] at h
    have h := (notes_bind h).resolve_right fun ⟨n, w₁, _, h⟩ => hf n w₁ h
    have k₁ : w.advance.current.kind = .ifWord := by rw [hc, hi]
    have hbroken : Broken (Has .conditional K) w.advance.tokens p :=
      hb .conditional w.advance p K hw.advance k₁ hK h
    rw [e]
    refine hbroken.congr_first (q := (· = .ifWord)) (fun us hus => ?_) k₁ fun us hus => ?_
    · refine (or_iff_right fun hblock => ?_).symm
      obtain ⟨n, hfirst⟩ := hblock.first fun _ => trivial
      rw [hus] at hfirst
      cases hfirst
    · obtain ⟨n, hfirst⟩ := hus.first fun _ => trivial
      exact hfirst
  · rw [if_neg (by simp [hi])] at h
    have hbroken := hb.braced hs hw hne hK h fun n w₁ _ _ h => absurd h (hg n w₁)
    refine hbroken.congr_first (q := (· ≠ .ifWord)) (fun us hus => ?_) ?_ fun us hus he => ?_
    · refine (or_iff_left fun hconditional => ?_).symm
      obtain ⟨n, hfirst⟩ := hconditional.first fun _ => trivial
      exact hus hfirst
    · rwa [← hw.next_kind]
    · obtain ⟨n, hfirst⟩ := hus.first fun _ => trivial
      rw [he] at hfirst
      cases hfirst

/-- A conditional breaks at a part of it or at a token between its parts, and the parts before were
read cleanly. -/
theorem conditional_breaks (hs : Sound self) (hb : Breaks self) (hw : w.Ended)
    (hk : w.current.kind = .ifWord) (hK : Closable K) (h : Notes (conditional self) w p) :
    Broken (Has .conditional K) w.tokens p := by
  rw [conditional_eq, notes_current_bind] at h
  have hne := hw.ahead_ne_nil (by simp [hk])
  refine Broken.cons ?_ fun us => has_conditional hk
  refine hb.condition hs hw hne hK.alternative h fun condition consequence w₁ hw₁ hne₁ h => ?_
  rw [conditionalRest] at h
  dsimp only at h
  rw [notes_nextIs_bind] at h
  by_cases he : w₁.next.kind = .elseWord
  · rw [if_pos (decide_eq_true he), notes_advance_bind] at h
    obtain ⟨e₁, k₁⟩ := hw₁.next_of he (by decide)
    have hne₂ := hw₁.advance.ahead_ne_nil (by simp [k₁])
    rw [e₁, Window.tokens]
    refine Broken.cons ?_ fun us => hasAlternative_else k₁
    refine hb.alternative hs hw₁.advance hne₂ hK h (fun n w h => ?_) fun n w => ?_
    · split at h
      · exact not_notes_pure h
      · exact not_notes_spanFrom_bind h
    · exact not_notes_spanFrom_bind
  · rw [if_neg (by simp [he])] at h
    exact absurd h not_notes_spanFrom_bind

/-- A function breaks in its parameters or in its body. -/
theorem function_breaks (hs : Sound self) (hb : Breaks self) (hw : w.Ended)
    (hk : w.current.kind = .functionWord) (hK : Closable K) (h : Notes (function self) w p) :
    Broken (Has .operand K) w.tokens p := by
  rw [function, notes_current_bind] at h
  have hne := hw.ahead_ne_nil (by simp [hk])
  have hblock := (closable_block hK.possible).possible
  refine Broken.cons ?_ fun us => has_operand_function hk
  -- what follows the parameters is a step only once it is known whether there are any
  refine @broken_past _ _ _ _ _ (@Along.bind _ _ _ _ _ _ inferInstance fun all => ?_) hw hne
    (by decide) (possible_parameters hblock) h fun hw₁ hne₁ h => ?_
  · cases all <;> infer_instance
  rcases @notes_bind _ _ _ _ _ _ _ (fun all => by cases all <;> infer_instance) h with
    h | ⟨r, w₂, hc, h⟩
  · exact parameters_breaks hw₁ hne₁ hblock h
  · obtain ⟨all, ps, rfl, ha, hps⟩ := parameters_sound hw₁ hc
    have hne₂ := hw₁.ahead_ne_nil_of_append hne₁ ha hps.not_end
    rw [ha]
    refine Broken.parameters ?_ hps
    exact hb.braced hs (hc.ended hw₁) hne₂ hK h fun _ _ _ _ h => absurd h not_notes_spanFrom_bind

/-! ### Operators and calls -/

/-- Further arguments break in an argument behind a comma or at the closing parenthesis. -/
theorem moreArguments_breaks (hs : Sound self) (hb : Breaks self) {g : Array Node → Parser α}
    [∀ all, Along Window.Leads (g all)] {m : Nat} {found : Array Node} (hw : w.Ended)
    (hne : w.ahead ≠ []) (hm : w.ahead.length ≤ m) (hK : ∃ us, K us)
    (h : Notes (moreArguments self found m >>= g) w p)
    (hg : ∀ all w₁, w₁.Ended → w₁.ahead ≠ [] → Notes (g all) w₁ p →
      Broken (Takes .rightParen K) w₁.ahead p) : Broken (Has .moreArguments K) w.ahead p := by
  induction m generalizing found w with
  -- the bound is not reached while the end of the text stands ahead
  | zero => exact absurd (List.length_eq_zero_iff.1 (Nat.le_zero.1 hm)) hne
  | succ m ih =>
    obtain ⟨e, hc⟩ := Window.tokens_advance hne
    rw [moreArguments, bind_assoc, notes_nextIs_bind] at h
    by_cases hcomma : w.next.kind = .comma
    · rw [if_pos (decide_eq_true hcomma), bind_assoc, notes_advance_bind, bind_assoc,
        notes_advance_bind, bind_assoc] at h
      obtain ⟨-, k₁⟩ := hw.next_of hcomma (by decide)
      have e₁ := hw.advance.ahead_eq (by simp [k₁])
      rw [e, Window.tokens, e₁]
      refine Broken.cons ?_ fun us => has_moreArguments_comma k₁
      refine hb.expression hs (by decide) hw.advance.advance (closable_moreArguments hK) h ?_
      intro n w₁ hw₁ hne₁ hlen _ h
      have hlens := congrArg List.length e
      have hlens₁ := congrArg List.length e₁
      rw [Window.tokens, List.length_cons] at hlens hlens₁
      exact ih hw₁ hne₁ (by omega) h
    · rw [if_neg (by simp [hcomma]), pure_bind] at h
      have hbroken := hg found w hw hne h
      refine hbroken.congr_first (q := (· ≠ .comma)) (fun us hus => (has_moreArguments hus).symm) ?_
        fun us hus => ?_
      · rwa [← hw.next_kind]
      · rw [hus.firstKind]
        decide

/-- Arguments break in one of them or at the closing parenthesis. -/
theorem arguments_breaks (hs : Sound self) (hb : Breaks self) (hw : w.Ended) (hne : w.ahead ≠ [])
    (hK : ∃ us, K us) (h : Notes (arguments self) w p) : Broken (Has .arguments K) w.ahead p := by
  obtain ⟨e, hc⟩ := Window.tokens_advance hne
  rw [arguments, notes_nextIs_bind] at h
  by_cases hclose : w.next.kind = .rightParen
  · rw [if_pos (decide_eq_true hclose), notes_advance_bind] at h
    exact absurd h not_notes_pure
  · rw [if_neg (by simp [hclose]), notes_advance_bind] at h
    have hmore := closable_moreArguments hK
    have hbroken := hb.expression hs (by decide) hw.advance hmore h fun n w₁ hw₁ hne₁ _ _ h => by
      rw [notes_remaining_bind] at h
      refine moreArguments_breaks hs hb hw₁ hne₁ (Nat.le_refl _) hK h fun all w₂ hw₂ hne₂ h => ?_
      exact broken_expect hw₂ hne₂ (by decide) hK h fun _ _ h => absurd h not_notes_pure
    rw [← e] at hbroken
    refine hbroken.congr_first (q := (· ≠ .rightParen)) (fun us hus => (has_arguments hus).symm) ?_
      fun us hus he => ?_
    · rwa [← hw.next_kind]
    · -- an expression starts with no closing parenthesis
      obtain ⟨n, hfirst⟩ := hus.first fun _ => trivial
      rw [he] at hfirst
      cases hfirst

/-- A call breaks in its arguments. -/
theorem call_breaks (hs : Sound self) (hb : Breaks self) {callee : Node} (hw : w.Ended)
    (hk : w.current.kind = .leftParen) (hK : ∃ us, K us) (h : Notes (call self callee) w p) :
    Broken (Takes .leftParen (Has .arguments K)) w.tokens p := by
  rw [call] at h
  have hne := hw.ahead_ne_nil (by simp [hk])
  have hbroken : Broken (Has .arguments K) w.ahead p := by
    rcases @notes_bind _ _ _ _ _ _ _ (fun all => by cases all <;> infer_instance) h with
      h | ⟨r, w₁, -, h⟩
    · exact arguments_breaks hs hb hw hne hK h
    · cases r with
      | none => exact absurd h not_notes_pure
      | some all => exact absurd h not_notes_spanOver_bind
  exact hbroken.cons fun us => takes_cons_of_kind hk

/-- An operator breaks in its right operand. -/
theorem infixed_breaks (hs : Sound self) (hb : Breaks self) {left : Node} (hw : w.Ended)
    (hk : 1 < w.current.kind.strength) (hK : Closable K) (h : Notes (infixed self left) w p) :
    Broken (Has (.expression w.current.kind.strength) K) w.ahead p := by
  rw [infixed, notes_current_bind, notes_advance_bind] at h
  rw [hw.ahead_eq fun he => by rw [he] at hk; exact absurd hk (by decide)]
  refine hb.expression hs (Nat.le_of_lt hk) hw.advance hK h fun right w₁ _ _ _ hn h => ?_
  rw [if_neg (by simp [hn])] at h
  exact absurd h not_notes_spanOver_bind

/-- Operators break in the first round that notes a problem; the rounds before were clean. -/
theorem operators_breaks (hs : Sound self) (hb : Breaks self) {m : Nat} {left : Node}
    (ha : 1 ≤ above) (hw : w.Ended) (hne : w.ahead ≠ []) (hl : left.isMissing = false)
    (hK : Closable K) (h : Notes (operators self above left m) w p) :
    Broken (HasOperators above K) w.ahead p := by
  induction m generalizing left w with
  | zero => exact absurd h not_notes_pure
  | succ m ih =>
    obtain ⟨e, hc⟩ := Window.tokens_advance hne
    rw [operators, notes_next_bind] at h
    by_cases hstop : w.next.kind.strength ≤ above
    · rw [if_pos (.inr hstop)] at h
      exact absurd h not_notes_pure
    have hstrong : above < w.advance.current.kind.strength := by
      rw [hc]
      omega
    -- behind the operand or the arguments the same operators are expected again
    have hrest := hK.operators ha
    rw [if_neg (by simp [hl, hstop]), notes_advance_bind] at h
    dsimp only at h
    have hne₁ := hw.advance.ahead_ne_nil (Kind.ne_endOfText_of_lt hstrong ha)
    rw [e]
    by_cases hp : w.next.kind = .leftParen
    · have k₁ : w.advance.current.kind = .leftParen := by rw [hc, hp]
      rw [k₁] at hstrong
      rw [if_pos hp] at h
      have hbroken : Broken (Takes .leftParen (Has .arguments (HasOperators above K)))
          w.advance.tokens p := by
        rcases notes_bind h with h | ⟨left', w₁, hl', h⟩
        · exact hb (.call left) w.advance p _ hw.advance k₁ hrest h
        · obtain ⟨ts, ht, o, us, span, args, rfl, rfl, hr⟩ :=
            hs (.call left) _ _ _ hw.advance k₁ hl'
          obtain ⟨rfl, hu⟩ := List.cons.inj ht
          have hne₂ := hw.advance.ahead_ne_nil_of_append hne₁ hu (hr.not_end trivial)
          have hbroken := ih (hl'.ended hw.advance) hne₂ rfl h
          refine Broken.cons ?_ fun us => takes_cons_of_kind k₁
          exact hbroken.behind ⟨us, hu, hr⟩ trivial Leaves.arguments_unique hrest
      exact hbroken.congr_first (q := (· = .leftParen))
        (fun us hus => (hasOperators_call hstrong hus).symm) k₁ fun us hus => hus.firstKind _
    · have k₁ : w.advance.current.kind ≠ .leftParen := by rwa [hc]
      have hlt : 1 < w.advance.current.kind.strength := Nat.lt_of_le_of_lt ha hstrong
      rw [if_neg hp] at h
      refine Broken.cons ?_ fun us => hasOperators_infixed hstrong k₁
      rcases notes_bind h with h | ⟨left', w₁, hl', h⟩
      · exact infixed_breaks hs hb hw.advance hlt hrest h
      · obtain ⟨span, right, ts, rfl, ht, hr⟩ := infixed_sound hs hw.advance hlt hl'
        have hu := (List.cons.inj ht).2
        have hne₂ := hw.advance.ahead_ne_nil_of_append hne₁ hu (hr.not_end (Nat.le_of_lt hlt))
        have hbroken := ih (hl'.ended hw.advance) hne₂ rfl h
        exact hbroken.behind ⟨ts, hu, hr⟩ (Nat.le_of_lt hlt) Leaves.expression_unique hrest

/-- An operand breaks at its first token or inside it. -/
theorem operand_breaks (hs : Sound self) (hb : Breaks self) (hw : w.Ended) (hK : Closable K)
    (h : Notes (operand self) w p) : Broken (Has .operand K) w.tokens p := by
  have hpossible : ∃ us, Has .operand K us := by
    obtain ⟨us, hus⟩ := hK.possible
    exact ⟨Kind.identifier.token :: us, (has_operand_name rfl).2 hus⟩
  rw [operand, notes_current_bind] at h
  split at h
  · exact absurd h not_notes_pure
  · unfold integerLiteral at h
    split at h
    · exact absurd h not_notes_throw
    · exact absurd h not_notes_pure
  · next hk => exact signed_breaks hs hb hw (.inl hk) hK h
  · next hk => exact signed_breaks hs hb hw (.inr hk) hK h
  · next hk => exact grouped_breaks hs hb hw hk hK h
  · next hk =>
    refine (conditional_breaks hs hb hw hk hK h).congr_first (q := (· = .ifWord))
      (fun us hus => (has_operand_choice hus).symm) hk fun us hus => ?_
    obtain ⟨n, hfirst⟩ := hus.first fun _ => trivial
    exact hfirst
  · next hk => exact function_breaks hs hb hw hk hK h
  · next hk =>
    rw [notes_note_bind h]
    refine .rejected rfl (by simp [hk]) hpossible fun vs => not_has_operand ?_
    rw [hk]
    rfl
  · next =>
    rw [notes_note_bind h]
    refine .rejected rfl (by simp [SyntaxCause.code]) hpossible fun vs => not_has_operand ?_
    unfold Kind.beginsExpression
    split <;> first | rfl | contradiction

/-- An expression breaks in its operand or in the operators behind it. -/
theorem expression_breaks (hs : Sound self) (hb : Breaks self) (ha : 1 ≤ above) (hw : w.Ended)
    (hK : Closable K) (h : Notes (expression self above) w p) :
    Broken (Has (.expression above) K) w.tokens p := by
  rw [expression] at h
  have hrest := hK.operators ha
  refine Broken.congr ?_ fun us => has_expression.symm
  rcases notes_bind h with h | ⟨left, w₁, hl, h⟩
  · exact operand_breaks hs hb hw hrest h
  · obtain ⟨ts, ht, hleft⟩ := operand_sound hs hw hl
    rw [notes_remaining_bind] at h
    have hne := hleft.ahead_ne_nil trivial hw ht
    have hbroken := operators_breaks hs hb ha (hl.ended hw) hne hleft.present hK h
    exact hbroken.behind ⟨ts, ht, hleft⟩ trivial Leaves.operand_unique hrest

/-! ### Bindings -/

/-- A declaration breaks in front of what ends it. -/
theorem declaration_breaks (hs : Sound self) (hb : Breaks self) {finish : Parser Unit}
    [Along Window.Leads finish] (hw : w.Ended) (hne : w.ahead ≠ []) (hK : Closable K)
    (hfinish : ∀ w, ¬ Notes finish w p) (h : Notes (declaration self finish) w p) :
    Broken (Takes .identifier (Takes .assign (Has (.expression lowest) K))) w.ahead p := by
  rw [declaration, notes_current_bind] at h
  have hvalue := hK.expression (Nat.le_refl lowest)
  refine broken_past hw hne (by decide) (possible_takes .assign hvalue) h fun hw₁ hne₁ h => ?_
  rw [notes_current_bind] at h
  dsimp only at h
  refine broken_past hw₁ hne₁ (by decide) hvalue h fun hw₂ hne₂ h => ?_
  rw [notes_advance_bind] at h
  rw [(Window.tokens_advance hne₂).1]
  refine hb.expression hs (by decide) hw₂.advance hK h fun value w₃ _ _ _ _ h => ?_
  rcases notes_bind h with h | ⟨⟨⟩, w₄, -, h⟩
  · exact absurd h (hfinish w₃)
  · exact absurd h not_notes_spanFrom_bind

/-- An assignment breaks in its value, since its equals sign was seen. -/
theorem assignment_breaks (hs : Sound self) (hb : Breaks self) {finish : Parser Unit}
    [Along Window.Leads finish] (hw : w.Ended) (ha : w.next.kind = .assign) (hK : Closable K)
    (hfinish : ∀ w, ¬ Notes finish w p) (h : Notes (assignment self finish) w p) :
    Broken (Has (.expression lowest) K) w.advance.ahead p := by
  rw [assignment, notes_current_bind] at h
  obtain ⟨-, k₁⟩ := hw.next_of ha (by decide)
  obtain ⟨-, h⟩ := (notes_past h).resolve_left fun h => h.1 ha
  rw [notes_advance_bind] at h
  rw [hw.advance.ahead_eq (by simp [k₁])]
  refine hb.expression hs (by decide) hw.advance.advance hK h fun value w₂ _ _ _ _ h => ?_
  rcases notes_bind h with h | ⟨⟨⟩, w₃, -, h⟩
  · exact absurd h (hfinish w₂)
  · exact absurd h not_notes_spanFrom_bind

/-- A clause that is none: the token behind its name is the wrong one, or its first token. -/
theorem broken_clause {name : String} (hw : w.Ended) (hK : Closable K)
    (hl : w.current.kind ≠ .letWord)
    (ha : ¬ (w.current.kind = .identifier ∧ w.next.kind = .assign))
    (hcause : p.cause = .invalidClause w.current.kind.name name)
    (hspan : p.span = w.current.span) : Broken (Has .binding K) w.tokens p := by
  have hcode : p.cause.code = "E105" := by rw [hcause, SyntaxCause.code]
  by_cases hi : w.current.kind = .identifier
  · obtain ⟨e, hc⟩ := Window.tokens_advance (hw.ahead_ne_nil (by simp [hi]))
    have hassign : w.advance.current.kind ≠ .assign := by
      rw [hc]
      exact fun hassign => ha ⟨hi, hassign⟩
    -- the name may start an assignment, so it is the token behind it that is wrong
    obtain ⟨us, hus⟩ := possible_takes .assign (hK.expression (Nat.le_refl lowest))
    refine ⟨[w.current], w.advance.current, w.advance.ahead, us, by rw [Window.tokens, e]; rfl,
      .inr ⟨hcode, [], w.current, rfl, hi, hspan⟩, (has_binding_name hi).2 hus, fun vs hvs => ?_⟩
    exact hassign (takes_cons.1 ((has_binding_name hi).1 hvs)).1
  · exact .rejected hspan (fun h => hi h.2) hK.binding fun vs => not_has_binding hl hi

/-- A clause of a counting loop breaks at its first token or inside it. -/
theorem clause_breaks (hs : Sound self) (hb : Breaks self) {name : String} (hw : w.Ended)
    (hK : Closable K) (h : Notes (clause self name) w p) : Broken (Has .binding K) w.tokens p := by
  rw [clause, notes_current_bind] at h
  by_cases hl : w.current.kind = .letWord
  · rw [if_pos hl] at h
    have hne := hw.ahead_ne_nil (by simp [hl])
    refine Broken.cons ?_ fun us => has_binding_let hl
    exact declaration_breaks hs hb hw hne hK (fun w => not_notes_pure) h
  rw [if_neg hl, notes_next_bind] at h
  by_cases ha : w.current.kind = .identifier ∧ w.next.kind = .assign
  · rw [if_pos ha] at h
    obtain ⟨e, k₁⟩ := hw.next_of ha.2 (by decide)
    have hbroken := assignment_breaks hs hb hw ha.2 hK (fun w => not_notes_pure) h
    rw [Window.tokens, e]
    exact hbroken.append [w.current, w.advance.current] fun us =>
      (has_binding_name ha.1).trans (takes_cons_of_kind k₁)
  · rw [if_neg ha] at h
    have hp := notes_note_bind h
    exact broken_clause hw hK hl ha (congrArg Problem.cause hp) (congrArg Problem.span hp)

/-! ### Statements -/

/-- A missing semicolon is no problem. -/
theorem not_notes_terminator : ¬ Notes terminator w p := by
  rw [terminator, notes_nextIs_bind]
  split
  · exact not_notes_of_eq rfl w.advance_problems
  · exact not_notes_pure

/-- A loop breaks at a part of it or at a token between its parts. -/
theorem whileLoop_breaks (hs : Sound self) (hb : Breaks self) (hw : w.Ended)
    (hk : w.current.kind = .whileWord) (hK : Closable K) (h : Notes (whileLoop self) w p) :
    Broken (Has .statement K) w.tokens p := by
  rw [whileLoop, notes_current_bind] at h
  have hne := hw.ahead_ne_nil (by simp [hk])
  refine Broken.cons ?_ fun us => has_statement_while hk
  exact hb.condition hs hw hne hK h fun _ _ _ _ _ h => absurd h not_notes_spanFrom_bind

/-- A problem in a clause, or behind it. -/
theorem Breaks.clause (hs : Sound self) (hb : Breaks self) {name : String} {f : Node → Parser α}
    [∀ n, Along Window.Leads (f n)] (hw : w.Ended) (hK : Closable K)
    (h : Notes (Parser.clause self name >>= f) w p)
    (hf : ∀ n w₁, w₁.Ended → w₁.ahead ≠ [] → n.isMissing = false → Notes (f n) w₁ p →
      Broken K w₁.ahead p) : Broken (Has .binding K) w.tokens p := by
  rcases notes_bind h with h | ⟨n, w₁, hc, h⟩
  · exact clause_breaks hs hb hw hK h
  · obtain ⟨hw₁, ts, ht, hr⟩ := clause_sound hs hw hc
    have hbroken := hf n w₁ hw₁ (hr.ahead_ne_nil trivial hw ht) hr.present h
    exact hbroken.behind ⟨ts, ht, hr⟩ trivial Leaves.binding_unique hK

/-- A counting loop breaks at one of its clauses, at a token between them or in its body. -/
theorem forLoop_breaks (hs : Sound self) (hb : Breaks self) (hw : w.Ended)
    (hk : w.current.kind = .forWord) (hK : Closable K) (h : Notes (forLoop self) w p) :
    Broken (Has .statement K) w.tokens p := by
  rw [forLoop_eq, notes_current_bind] at h
  have hne := hw.ahead_ne_nil (by simp [hk])
  -- what is expected, from the last token to the first one
  have hblock := (closable_block hK.possible).possible
  have hclose := closable_takes .rightParen (by decide) hblock
  have hsemicolon₂ := closable_takes .semicolon (by decide) hclose.binding
  have hcondition := hsemicolon₂.expression (Nat.le_refl lowest)
  have hsemicolon₁ := closable_takes .semicolon (by decide) hcondition
  refine Broken.cons ?_ fun us => has_statement_for hk
  refine broken_past hw hne (by decide) hsemicolon₁.binding h fun hw₁ hne₁ h => ?_
  rw [notes_advance_bind] at h
  rw [(Window.tokens_advance hne₁).1]
  refine Breaks.clause hs hb hw₁.advance hsemicolon₁ h fun init w₂ hw₂ hne₂ hinit h => ?_
  rw [forRest, if_neg (by simp [hinit])] at h
  refine broken_past hw₂ hne₂ (by decide) hcondition h fun hw₃ hne₃ h => ?_
  rw [notes_advance_bind] at h
  rw [(Window.tokens_advance hne₃).1]
  refine hb.expression hs (by decide) hw₃.advance hsemicolon₂ h fun cond w₄ hw₄ hne₄ _ _ h => ?_
  refine broken_past hw₄ hne₄ (by decide) hclose.binding h fun hw₅ hne₅ h => ?_
  rw [notes_advance_bind] at h
  rw [(Window.tokens_advance hne₅).1]
  refine Breaks.clause hs hb hw₅.advance hclose h fun post w₆ hw₆ hne₆ hpost h => ?_
  rw [forBody, if_neg (by simp [hpost])] at h
  refine broken_past hw₆ hne₆ (by decide) hblock h fun hw₇ hne₇ h => ?_
  exact hb.braced hs hw₇ hne₇ hK h fun _ _ _ _ h => absurd h not_notes_spanFrom_bind

/-- An expression that is a statement, when no assignment is taken for it. -/
theorem broken_expressionStatement {t : Token} {ts : List Token} (hK : Closable (PastSemicolon K))
    (ht : t.kind ≠ .letWord ∧ t.kind ≠ .whileWord ∧ t.kind ≠ .forWord)
    (hi : t.kind = .identifier → firstKind ts .endOfText ≠ .assign)
    (h : Broken (Has (.expression lowest) (PastSemicolon K)) (t :: ts) p) :
    Broken (Has .statement K) (t :: ts) p := by
  obtain ⟨ps, t', rest, us, he, hblames, hus, hdead⟩ := h
  -- a name may always stand alone
  obtain ⟨xs, hxs, hclose⟩ := hK.operators (Nat.le_refl lowest)
  have hname : ∀ u : Token, u.kind = .identifier →
      Has (.expression lowest) (PastSemicolon K) (u :: xs) :=
    fun u hu => has_expression.2 ((has_operand_name hu).2 hxs)
  cases ps with
  | nil =>
    obtain ⟨rfl, rfl⟩ := List.cons.inj he
    refine ⟨[], t, ts, Kind.identifier.token :: xs, rfl, hblames, ?_, fun vs hvs => hdead vs ?_⟩
    · exact (has_statement_expression (by decide) fun _ => hclose.2.2).2 (hname _ rfl)
    · exact (has_statement_expression ht fun hi => absurd (hname t hi) (hdead xs)).1 hvs
  | cons u ps =>
    obtain ⟨rfl, rfl⟩ := List.cons.inj he
    obtain ⟨ys, hys, hne⟩ : ∃ ys, Has (.expression lowest) (PastSemicolon K) (t :: (ps ++ ys)) ∧
        (t.kind = .identifier → firstKind (ps ++ ys) .endOfText ≠ .assign) := by
      by_cases ht : ps = [] ∧ t.kind = .identifier
      · obtain ⟨rfl, ht⟩ := ht
        exact ⟨xs, hname t ht, fun _ => hclose.2.2⟩
      · refine ⟨us, hus, fun hid => ?_⟩
        cases ps with
        | nil => exact absurd ⟨rfl, hid⟩ ht
        | cons v ps => exact hi hid
    refine ⟨t :: ps, t', rest, ys, rfl, hblames, (has_statement_expression ht hne).2 hys,
      fun vs hvs => hdead vs ((has_statement_expression ht fun hid => ?_).1 hvs)⟩
    cases ps with
    | nil => exact hi hid
    | cons v ps => exact hi hid

/-- An expression as a statement breaks in the expression. -/
theorem expressionStatement_breaks (hs : Sound self) (hb : Breaks self) (hw : w.Ended)
    (ht : w.current.kind ≠ .letWord ∧ w.current.kind ≠ .whileWord ∧ w.current.kind ≠ .forWord)
    (hi : w.current.kind = .identifier → w.next.kind ≠ .assign) (hK : Endable K)
    (h : Notes (expressionStatement self) w p) : Broken (Has .statement K) w.tokens p := by
  rw [expressionStatement, notes_current_bind] at h
  rw [hw.next_kind] at hi
  refine broken_expressionStatement hK.semicolon ht hi ?_
  refine hb.expression hs (by decide) hw hK.semicolon h fun value w₁ _ _ _ hn h => ?_
  rw [if_neg (by simp [hn])] at h
  rcases notes_bind h with h | ⟨⟨⟩, w₂, -, h⟩
  · exact absurd h not_notes_terminator
  · exact absurd h not_notes_spanFrom_bind

/-- A statement breaks as the rule that its first tokens chose says. -/
theorem statement_breaks (hs : Sound self) (hb : Breaks self) (hw : w.Ended) (hK : Endable K)
    (h : Notes (statement self) w p) : Broken (Has .statement K) w.tokens p := by
  rw [statement, notes_current_bind] at h
  split at h
  · next hk =>
    have hne := hw.ahead_ne_nil (by simp [hk])
    refine Broken.cons ?_ fun us => (has_statement_binding (.inl hk)).trans (has_binding_let hk)
    exact declaration_breaks hs hb hw hne hK.semicolon (fun _ => not_notes_terminator) h
  · next hk => exact whileLoop_breaks hs hb hw hk hK.closable h
  · next hk => exact forLoop_breaks hs hb hw hk hK.closable h
  · next hk =>
    rw [notes_nextIs_bind] at h
    by_cases ha : w.next.kind = .assign
    · rw [if_pos (decide_eq_true ha)] at h
      obtain ⟨e, k₁⟩ := hw.next_of ha (by decide)
      have hbroken := assignment_breaks hs hb hw ha hK.semicolon (fun _ => not_notes_terminator) h
      rw [Window.tokens, e]
      refine hbroken.append [w.current, w.advance.current] fun us => ?_
      have hstatement : Has .statement K (w.current :: w.advance.current :: us) ↔
          Has .binding (PastSemicolon K) (w.current :: w.advance.current :: us) :=
        has_statement_binding (.inr ⟨hk, k₁⟩)
      exact (hstatement.trans (has_binding_name hk)).trans (takes_cons_of_kind k₁)
    · rw [if_neg (by simp [ha])] at h
      exact expressionStatement_breaks hs hb hw (by simp [hk]) (fun _ => ha) hK h
  · next hl hw' hf hi =>
    exact expressionStatement_breaks hs hb hw ⟨hl, hw', hf⟩ (fun h => absurd h hi) hK h

/-! ### Blocks -/

/-- A problem in the first of some statements, or behind it. Statements end with a token that no
statement starts with. -/
theorem broken_statements {k : Kind} {ts : List Token} (hk : k = .rightBrace ∨ k = .endOfText)
    (hK : ∀ us, K us → firstKind us .endOfText = k) (hts : firstKind ts .endOfText ≠ k)
    (h : Broken (Has .statement (Has .statements K)) ts p) : Broken (Has .statements K) ts p := by
  refine h.congr_first (q := (· ≠ k)) (fun us hus => ?_) hts fun us hus => ?_
  · refine ⟨fun hst => has_statements.2 (.inr hst), fun hst => ?_⟩
    exact (has_statements.1 hst).resolve_left fun h => hus (hK us h)
  · rintro rfl
    exact not_has_statement hk hus

/-- What ends a block goes on with nothing. -/
theorem endable_rightBrace (hK : ∃ us, K us) : Endable (Takes .rightBrace K) := by
  obtain ⟨us, hus⟩ := possible_takes .rightBrace hK
  have hfirst := hus.firstKind .endOfText
  refine ⟨us, hus, ?_, ?_⟩ <;> rw [hfirst]
  · decide
  · decide

/-- The statements of a block break in one of them or where the closing brace is missing. -/
theorem blockStatements_breaks (hs : Sound self) (hb : Breaks self) {opening : Token} {m : Nat}
    {found : Array Node} (hw : w.Ended) (hK : ∃ us, K us)
    (h : Notes (blockStatements self opening found m) w p) :
    Broken (Has .statements (Takes .rightBrace K)) w.tokens p := by
  have hrest := (endable_rightBrace hK).statements
  induction m generalizing found w with
  | zero => exact absurd h not_notes_pure
  | succ m ih =>
    rw [blockStatements, notes_current_bind] at h
    by_cases hclose : w.current.kind = .rightBrace
    · rw [if_pos hclose] at h
      exact absurd h not_notes_pure
    rw [if_neg hclose] at h
    by_cases hend : w.current.kind = .endOfText
    · rw [if_pos hend] at h
      rw [notes_note_bind h]
      refine .rejected rfl (by simp [SyntaxCause.code]) hrest.closable.possible fun vs hvs => ?_
      rcases has_statements.1 hvs with hvs | hvs
      · exact hclose (takes_cons.1 hvs).1
      · have hfirst : firstKind (w.current :: vs) .endOfText = .endOfText := hend
        exact not_has_statement (.inr hfirst) hvs
    rw [if_neg hend] at h
    refine broken_statements (.inl rfl) (fun us hus => hus.firstKind _) hclose ?_
    -- the problem is noted in the first statement, or behind it
    rcases notes_bind h with h | ⟨n, w₁, hc, h⟩
    · exact hb .statement w p _ hw trivial hrest h
    · rw [notes_advance_bind] at h
      obtain ⟨hw₁, ts, ht, hr⟩ := hs.statement hw hc
      have hbroken := ih hw₁.advance h
      rw [← (Window.tokens_advance (hr.ahead_ne_nil trivial hw ht)).1] at hbroken
      exact hbroken.behind ⟨ts, ht, hr⟩ trivial Leaves.statement_unique hrest

/-- A block breaks behind its opening brace. -/
theorem block_breaks (hs : Sound self) (hb : Breaks self) (hw : w.Ended)
    (hk : w.current.kind = .leftBrace) (hK : ∃ us, K us) (h : Notes (block self) w p) :
    Broken (Has .block K) w.tokens p := by
  rw [block, notes_current_bind, notes_advance_bind, notes_remaining_bind] at h
  rw [Window.tokens, hw.ahead_eq (by simp [hk])]
  refine Broken.cons ?_ fun us => has_block hk
  rcases notes_bind h with h | ⟨found, w₁, -, h⟩
  · exact blockStatements_breaks hs hb hw.advance hK h
  · exact absurd h not_notes_spanFrom_bind

end

end Parser

open Ember.Parser in
/-- **Every phrase notes its first problem where it breaks.** -/
theorem parsePhrase_breaks : ∀ depth, Breaks (parsePhrase depth)
  | 0, _, w, _, _, _, _, _, h => absurd h (not_notes_throw (w := w))
  | 1, .statement, w, _, _, _, _, _, h => absurd h (not_notes_throw (w := w))
  | 1, .expression _, w, _, _, _, _, _, h => absurd h (not_notes_throw (w := w))
  | depth + 2, .statement, _, _, _, hw, _, hK, h =>
    statement_breaks (parsePhrase_sound depth) (parsePhrase_breaks depth) hw hK h
  | depth + 2, .expression _, _, _, _, hw, ha, hK, h =>
    expression_breaks (parsePhrase_sound depth) (parsePhrase_breaks depth) ha hw hK h
  | depth + 1, .block, _, _, _, hw, hk, hK, h =>
    block_breaks (parsePhrase_sound depth) (parsePhrase_breaks depth) hw hk hK.possible h
  | depth + 1, .conditional, _, _, _, hw, hk, hK, h =>
    conditional_breaks (parsePhrase_sound depth) (parsePhrase_breaks depth) hw hk hK h
  | depth + 1, .call _, _, _, _, hw, hk, hK, h =>
    call_breaks (parsePhrase_sound depth) (parsePhrase_breaks depth) hw hk hK.possible h

end Ember

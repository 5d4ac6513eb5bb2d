import Ember.Proofs.Grammar.Complete
import Ember.Proofs.Grammar.Leaves

/-!
# What follows decides nothing but the end

Tokens are read in one way: how many of them are taken does not depend on the tree that is
looked for (`Leaves.unique`), and any token that goes on with nothing may stand behind them
(`Reads.refollow`).
-/

namespace Ember

/-! ## Another token behind -/

/-- Tokens of this kind go on with nothing. -/
def Kind.Closes (k : Kind) : Prop :=
  k.strength ≤ lowest ∧ k ≠ .elseWord ∧ k ≠ .assign

instance (k : Kind) : Decidable k.Closes :=
  inferInstanceAs (Decidable (_ ∧ _ ∧ _))

/-- Tokens of this kind are not drawn into what is read before them. -/
def Reading.Closes (k : Kind) : Reading → Prop
  | .statement _ | .statements _ => k.Closes ∧ k ≠ .semicolon
  | _ => k.Closes

variable {r : Reading} {ts us : List Token} {k k' : Kind}

/-- What is read in front of some tokens is read there whatever follows these, if it is read in
front of that too. -/
theorem Reads.refirst (h : Reads r ts (firstKind us k)) (h' : Reads r ts k') :
    Reads r ts (firstKind us k') := by
  cases us with
  | nil => exact h'
  | cons => exact h

/-- What ends a statement does so in front of anything but a semicolon. -/
theorem Terminator.refollow (h : Terminator us k) (hk : k' ≠ .semicolon) : Terminator us k' := by
  cases h with
  | semicolon ht => exact .semicolon ht
  | omitted => exact .omitted hk

/-- **Anything that goes on with nothing may follow.** -/
theorem Reads.refollow (h : Reads r ts k) (hr : r.Proper) (hk : r.Closes k') : Reads r ts k' := by
  induction h generalizing k' with
  | identifier ht => exact .identifier ht
  | integer ht hl => exact .integer ht hl
  | signed ht _ ih => exact .signed ht (ih (show lowest ≤ signStrength by decide) hk)
  | grouped ho h hc => exact .grouped ho h hc
  | choice _ ih => exact .choice (ih trivial hk)
  | function hf ho hps _ ih => exact .function hf ho hps (ih trivial hk)
  | expression h _ ih₁ ih₂ => exact .expression (h.refirst (ih₁ trivial hk)) (ih₂ hr hk)
  | stop => exact .stop (Nat.le_trans hk.1 hr)
  | infixed hs ho h _ ih₁ ih₂ =>
    exact .infixed hs ho (h.refirst (ih₁ (Nat.le_trans hr (Nat.le_of_lt hs)) hk)) (ih₂ hr hk)
  | call hs ho h _ ih₁ ih₂ => exact .call hs ho (h.refirst (ih₁ trivial hk)) (ih₂ hr hk)
  | noArguments hc => exact .noArguments hc
  | arguments h _ ih₁ ih₂ =>
    exact .arguments (h.refirst (ih₁ (Nat.le_refl lowest) hk)) (ih₂ trivial hk)
  | lastArgument hc => exact .lastArgument hc
  | nextArgument hc h _ ih₁ ih₂ =>
    exact .nextArgument hc (h.refirst (ih₁ (Nat.le_refl lowest) hk)) (ih₂ trivial hk)
  | ifOnly hi ho h hc _ _ _ ih => exact .ifOnly hi ho h hc (ih trivial hk) hk.2.1
  | ifElse hi ho h hc h' he _ _ _ ih => exact .ifElse hi ho h hc h' he (ih trivial hk)
  | elseIf hi ho h hc h' he _ _ _ ih => exact .elseIf hi ho h hc h' he (ih trivial hk)
  | block ho h hc => exact .block ho h hc
  | noStatements => exact .noStatements
  | statements h _ ih₁ ih₂ => exact .statements (h.refirst (ih₁ trivial hk)) (ih₂ trivial hk)
  | declaration hl ht ha _ ih => exact .declaration hl ht ha (ih (Nat.le_refl lowest) hk)
  | assignment ht ha _ ih => exact .assignment ht ha (ih (Nat.le_refl lowest) hk)
  | binding h hu ih =>
    exact .binding (h.refirst (ih trivial hk.1)) (hu.refollow hk.2)
  | @expressionStatement ts us _ _ _ h hu hi ih =>
    refine .expressionStatement (h.refirst (ih (Nat.le_refl lowest) hk.1)) (hu.refollow hk.2)
      fun ht => ?_
    obtain ⟨t, ts, rfl, -⟩ := h.first trivial
    have hne := hi ht
    rw [List.cons_append, List.tail_cons] at hne ⊢
    -- only a name alone has the new token behind it
    cases hrest : ts ++ us with
    | nil => exact hk.1.2.2
    | cons u rest =>
      rw [hrest] at hne
      exact hne
  | whileLoop hw ho h hc _ _ ih =>
    exact .whileLoop hw ho h hc (ih trivial hk.1)
  | forLoop hf ho hi h₁ h h₂ hp hc _ _ _ _ ih =>
    exact .forLoop hf ho hi h₁ h h₂ hp hc (ih trivial hk.1)

/-! ## Another tree in front -/

/-- Operators may go on from any tree. -/
def Reading.GoesOn (ts : List Token) (k : Kind) : Reading → Prop
  | .operators above _ _ => ∀ left, ∃ n, Reads (.operators above left n) ts k
  | _ => True

/-- What is read goes on to where nothing more is taken. -/
theorem Reads.goesOn (h : Reads r ts k) : r.GoesOn ts k := by
  induction h with
  | stop hs => exact fun left => ⟨left, .stop hs⟩
  | @infixed op _ _ _ _ span _ right _ hs ho h _ _ ih =>
    intro left
    obtain ⟨n, hn⟩ := ih (.binary span left op.text right)
    exact ⟨n, .infixed hs ho h hn⟩
  | @call _ _ _ _ _ span _ _ args hs ho h _ _ ih =>
    intro left
    obtain ⟨n, hn⟩ := ih (.call span left args)
    exact ⟨n, .call hs ho h hn⟩
  | _ => trivial

/-! ## One way only -/

open Ember.Parser

/-- A step that is clean comes to one end. -/
theorem Parser.Gives.unique {α : Type} {x : Parser α} {w : Window} {P Q : α → Window → Prop}
    (h : Gives x w P) (h' : Gives x w Q) : ∃ a w', P a w' ∧ Q a w' := by
  obtain ⟨a, w₁, ⟨hx, -⟩, hP⟩ := h
  obtain ⟨b, w₂, ⟨hy, -⟩, hQ⟩ := h'
  rw [hx] at hy
  injection hy with ha hw
  subst ha hw
  exact ⟨a, w₁, hP, hQ⟩

/-- The rule parses whatever is read so, from a window whose tokens ahead are given by
`view`. -/
def Parses {α β : Type} (x : Nat → Parser β) (view : Window → List Token) (read : α → Reading) :
    Prop :=
  ∀ a ts k, Reads (read a) ts k → ∀ depth w rest, 4 * ts.length + 2 ≤ depth →
    view w = ts ++ rest → Starts rest k → Gives (x depth) w fun _ w' => w'.ahead = rest

/-- A parse of an operand decides what is read there. -/
theorem Parses.operand : Parses (fun depth => operand (parsePhrase depth)) Window.tokens .operand :=
  fun _ _ _ h depth w rest hd hw hk =>
    (h.runs depth w rest (by omega) hw hk).imp fun _ _ h => h.2

/-- A parse of an expression decides what is read there. -/
theorem Parses.expression (above : Nat) :
    Parses (fun depth => parsePhrase depth (.expression above)) Window.tokens (.expression above) :=
  fun _ _ _ h depth w rest hd hw hk =>
    (h.runs depth w rest (by omega) hw hk).imp fun _ _ h => h.2

/-- A parse of a block decides what is read there. -/
theorem Parses.block : Parses (fun depth => parsePhrase depth .block) Window.tokens .block :=
  fun _ _ _ h depth w rest hd hw hk =>
    (h.runs depth w rest (by omega) hw hk).imp fun _ _ h => h.2

/-- A parse of a statement decides what is read there. -/
theorem Parses.statement :
    Parses (fun depth => parsePhrase depth .statement) Window.tokens .statement :=
  fun _ _ _ h depth w rest hd hw hk =>
    (h.runs depth w rest hd hw hk).imp fun _ _ h => h.2

/-- A parse of arguments decides what is read there. -/
theorem Parses.arguments :
    Parses (fun depth => arguments (parsePhrase depth)) Window.ahead .arguments :=
  fun _ _ _ h depth w rest hd hw hk =>
    (h.runs depth w rest (by omega) hw hk).imp fun _ _ ⟨_, _, _, h⟩ => h

namespace Leaves

variable {n n' : Node} {us' : List Token} {above : Nat}

/-- A token behind all others changes nothing. -/
theorem concat {last : Token} (h : Leaves k r ts us) (hk : last.kind = k) :
    Leaves k r (ts ++ [last]) (us ++ [last]) := by
  obtain ⟨vs, rfl, h⟩ := h
  refine ⟨vs, List.append_assoc .., ?_⟩
  rwa [firstKind_append, firstKind_cons, hk]

/-- What a rule parses is read in one way. -/
theorem unique {α β : Type} {x : Nat → Parser β} {view : Window → List Token} {read : α → Reading}
    {a a' : α} (hx : Parses x view read) (hv : ∀ t ts, ∃ w, view w = t :: ts)
    (h : Leaves k (read a) ts us) (h' : Leaves k (read a') ts us') : us = us' := by
  -- the parser runs over the tokens in front of one of the kind that follows them
  let last : Token := ⟨k, "", default⟩
  have hk : last.kind = k := rfl
  obtain ⟨vs, he, hr⟩ := h.concat hk
  obtain ⟨vs', he', hr'⟩ := h'.concat hk
  have hstarts : ∀ xs : List Token, Starts (xs ++ [last]) (firstKind (xs ++ [last]) k) := by
    intro xs
    rw [firstKind_append, firstKind_cons, hk]
    exact (starts_cons hk).append xs
  obtain ⟨t, rest, ht⟩ := List.exists_cons_of_ne_nil (l := ts ++ [last]) (by simp)
  obtain ⟨w, hw⟩ := hv t rest
  rw [← ht] at hw
  have hlen := congrArg List.length he
  have hlen' := congrArg List.length he'
  simp only [List.length_append, List.length_singleton] at hlen hlen'
  have hrun := hx a vs _ hr (4 * (ts.length + 1) + 2) w _ (by omega) (hw.trans he) (hstarts us)
  have hrun' := hx a' vs' _ hr' (4 * (ts.length + 1) + 2) w _ (by omega) (hw.trans he')
    (hstarts us')
  obtain ⟨-, w', ha, ha'⟩ := hrun.unique hrun'
  exact List.append_cancel_right (ha.symm.trans ha')

theorem exists_tokens (t : Token) (ts : List Token) : ∃ w : Window, w.tokens = t :: ts :=
  ⟨{ current := t, ahead := ts }, rfl⟩

/-- An operand ends at one place only. -/
theorem operand_unique (h : Leaves k (.operand n) ts us) (h' : Leaves k (.operand n') ts us') :
    us = us' :=
  unique Parses.operand exists_tokens h h'

/-- An expression ends at one place only. -/
theorem expression_unique (h : Leaves k (.expression above n) ts us)
    (h' : Leaves k (.expression above n') ts us') : us = us' :=
  unique (Parses.expression above) exists_tokens h h'

/-- A block ends at one place only. -/
theorem block_unique (h : Leaves k (.block n) ts us) (h' : Leaves k (.block n') ts us') :
    us = us' :=
  unique Parses.block exists_tokens h h'

/-- A statement ends at one place only. -/
theorem statement_unique (h : Leaves k (.statement n) ts us)
    (h' : Leaves k (.statement n') ts us') : us = us' :=
  unique Parses.statement exists_tokens h h'

/-- Arguments end at one place only. -/
theorem arguments_unique {es es' : List Node} (h : Leaves k (.arguments es) ts us)
    (h' : Leaves k (.arguments es') ts us') : us = us' :=
  unique Parses.arguments (fun t ts => ⟨{ current := default, ahead := t :: ts }, rfl⟩) h h'

/-- A declaration or an assignment ends at one place only. -/
theorem binding_unique (h : Leaves k (.binding n) ts us) (h' : Leaves k (.binding n') ts us') :
    us = us' := by
  obtain ⟨_, _, _, _, _, _, _, rfl, hl, _, _, hv, -⟩ | ⟨_, _, _, _, _, _, rfl, ht, _, hv, -⟩ :=
    h.binding
  · obtain ⟨_, _, _, _, _, _, _, he, -, _, _, hv', -⟩ | ⟨_, _, _, _, _, _, he, ht', _, hv', -⟩ :=
      h'.binding
    · obtain ⟨-, -, -, rfl⟩ : _ ∧ _ ∧ _ ∧ _ := by simpa using he
      exact hv.expression_unique hv'
    · rw [(List.cons.inj he).1, ht'] at hl
      cases hl
  · obtain ⟨_, _, _, _, _, _, _, he, hl', _, _, hv', -⟩ | ⟨_, _, _, _, _, _, he, -, _, hv', -⟩ :=
      h'.binding
    · rw [(List.cons.inj he).1, hl'] at ht
      cases ht
    · obtain ⟨-, -, rfl⟩ : _ ∧ _ ∧ _ := by simpa using he
      exact hv.expression_unique hv'

end Leaves

end Ember

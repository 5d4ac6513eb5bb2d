import Ember.Proofs.Grammar.Sound

/-!
# What the grammar says is read without a problem

The converse of `Sound`: tokens that are read as a tree are parsed to that tree, up
to its spans, without a problem, whatever stands in front of them and behind them
(`Reads.runs`). Nesting is no obstacle: four levels a token are enough.

Every way to read a stretch has its lemma here, which executes the rule on it.
-/

namespace Ember

/-- A tree is not missing if it is, up to spans, one that is not missing. -/
theorem Node.present_of_erase {n n' : Node} (he : n'.erase = n.erase) (hn : n.isMissing = false) :
    ¬ n'.isMissing = true := by
  rw [← n'.isMissing_erase, he, n.isMissing_erase, hn]
  decide

/-- The tokens start with one of kind `k`. -/
def Starts (rest : List Token) (k : Kind) : Prop :=
  ∃ t us, rest = t :: us ∧ t.kind = k

/-- What follows some tokens starts as they do, or as what stands behind them. -/
theorem Starts.append {rest : List Token} {k : Kind} (h : Starts rest k) (us : List Token) :
    Starts (us ++ rest) (firstKind us k) := by
  cases us with
  | nil => exact h
  | cons u us => exact ⟨u, us ++ rest, rfl, rfl⟩

theorem Starts.append_left {ts : List Token} {k : Kind} (h : Starts ts k) (rest : List Token) :
    Starts (ts ++ rest) k := by
  obtain ⟨t, us, rfl, hk⟩ := h
  exact ⟨t, us ++ rest, rfl, hk⟩

theorem starts_cons {t : Token} {rest : List Token} {k : Kind} (h : t.kind = k) :
    Starts (t :: rest) k := ⟨t, rest, rfl, h⟩

theorem Starts.ne_nil {rest : List Token} {k : Kind} (h : Starts rest k) : rest ≠ [] := by
  obtain ⟨t, us, rfl, -⟩ := h
  exact List.cons_ne_nil _ _

namespace Window

variable {w : Window} {t : Token} {ts : List Token} {k : Kind}

theorem current_eq (h : w.tokens = t :: ts) : w.current = t := (List.cons.inj h).1

theorem ahead_eq (h : w.tokens = t :: ts) : w.ahead = ts := (List.cons.inj h).2

theorem next_eq (h : w.ahead = t :: ts) : w.next = t := by
  rw [next, h]
  rfl

/-- The next token is the one that what is ahead starts with. -/
theorem next_kind_eq (h : w.ahead = ts) (hs : Starts ts k) : w.next.kind = k := by
  obtain ⟨t, us, rfl, hk⟩ := hs
  rw [next_eq h, hk]

theorem advance_ahead_eq (h : w.ahead = t :: ts) : w.advance.ahead = ts := by
  obtain ⟨current, ahead, problems⟩ := w
  cases h
  rfl

/-- Where tokens are ahead a move leads to them. -/
theorem advance_tokens_eq (h : w.ahead = ts) (hne : ts ≠ []) : w.advance.tokens = ts := by
  rw [← h]
  exact (tokens_advance (h ▸ hne)).1.symm

end Window

namespace Parser

variable {α β : Type} {w w' : Window}

/-- The step is clean, and what it comes to satisfies `Q`. -/
def Gives (x : Parser α) (w : Window) (Q : α → Window → Prop) : Prop :=
  ∃ a w', Clean x w a w' ∧ Q a w'

theorem Gives.imp {x : Parser α} {P Q : α → Window → Prop} (h : Gives x w P)
    (hPQ : ∀ a w', P a w' → Q a w') : Gives x w Q := by
  obtain ⟨a, w', hc, hP⟩ := h
  exact ⟨a, w', hc, hPQ a w' hP⟩

theorem gives_pure {a : α} {Q : α → Window → Prop} (h : Q a w) : Gives (pure a) w Q :=
  ⟨a, w, clean_pure.2 ⟨rfl, rfl⟩, h⟩

/-- Of two clean steps the second one is judged at what the first one gives. -/
theorem gives_bind {x : Parser α} {f : α → Parser β} {P : α → Window → Prop}
    {Q : β → Window → Prop} (hx : Gives x w P) (hf : ∀ a w₁, P a w₁ → Gives (f a) w₁ Q) :
    Gives (x >>= f) w Q := by
  obtain ⟨a, w₁, ⟨hx, hp⟩, hP⟩ := hx
  obtain ⟨b, w₂, ⟨hb, hp'⟩, hQ⟩ := hf a w₁ hP
  exact ⟨b, w₂, ⟨by rw [bind_apply, hx]; exact hb, by rw [hp', hp]⟩, hQ⟩

theorem gives_current {f : Token → Parser α} {Q : α → Window → Prop} :
    Gives (current >>= f) w Q ↔ Gives (f w.current) w Q := Iff.rfl

theorem gives_next {f : Token → Parser α} {Q : α → Window → Prop} :
    Gives (next >>= f) w Q ↔ Gives (f w.next) w Q := Iff.rfl

theorem gives_nextIs {kind : Kind} {f : Bool → Parser α} {Q : α → Window → Prop} :
    Gives (nextIs kind >>= f) w Q ↔ Gives (f (decide (w.next.kind = kind))) w Q := Iff.rfl

theorem gives_remaining {f : Nat → Parser α} {Q : α → Window → Prop} :
    Gives (remaining >>= f) w Q ↔ Gives (f w.ahead.length) w Q := Iff.rfl

/-- A span from a token reaches to the end of the current one. -/
theorem gives_spanFrom {first : Token} {f : Span → Parser α} {Q : α → Window → Prop} :
    Gives (spanFrom first >>= f) w Q ↔
      Gives (f ⟨first.span.start, w.current.span.stop⟩) w Q := Iff.rfl

/-- A span over a tree reaches to the end of the current token. -/
theorem gives_spanOver {n : Node} {f : Span → Parser α} {Q : α → Window → Prop} :
    Gives (spanOver n >>= f) w Q ↔
      Gives (f ⟨(n.span?.getD w.current.span).start, w.current.span.stop⟩) w Q := Iff.rfl

/-- A move with tokens ahead is clean and leads to them. -/
theorem gives_advance {f : Unit → Parser α} {ts : List Token} {Q : α → Window → Prop}
    (ha : w.ahead = ts) (hne : ts ≠ []) (h : ∀ w₁ : Window, w₁.tokens = ts → Gives (f ()) w₁ Q) :
    Gives (advance >>= f) w Q := by
  have h₁ := h w.advance (Window.advance_tokens_eq ha hne)
  unfold Gives at h₁ ⊢
  simpa only [clean_advance_bind] using h₁

/-- The token that has to be there is passed where it is the next one. -/
theorem gives_past {kind : Kind} {more : Parser Node} {t : Token} {ts : List Token}
    {Q : Node → Window → Prop} (ha : w.ahead = t :: ts) (hk : t.kind = kind)
    (h : ∀ w₁ : Window, w₁.tokens = t :: ts → Gives more w₁ Q) : Gives (past kind more) w Q := by
  obtain ⟨n, w', hc, hQ⟩ := h w.advance (Window.advance_tokens_eq ha (List.cons_ne_nil _ _))
  exact ⟨n, w', clean_past.2 ⟨by rw [Window.next_eq ha, hk], hc⟩, hQ⟩

/-- A token that is there is expected cleanly. -/
theorem gives_expect {kind : Kind} {f : Bool → Parser α} {t : Token} {ts : List Token}
    {Q : α → Window → Prop} (ha : w.ahead = t :: ts) (hk : t.kind = kind)
    (h : ∀ w₁ : Window, w₁.tokens = t :: ts → Gives (f true) w₁ Q) :
    Gives (expect kind >>= f) w Q := by
  have hx : Gives (expect kind) w fun b w₁ => b = true ∧ w₁ = w.advance :=
    ⟨true, w.advance, ⟨by rw [expect_apply, Window.next_eq ha, if_pos hk], w.advance_problems⟩,
      rfl, rfl⟩
  refine gives_bind hx ?_
  rintro b w₁ ⟨rfl, rfl⟩
  exact h w.advance (Window.advance_tokens_eq ha (List.cons_ne_nil _ _))

theorem gives_nextIs_true {kind : Kind} {f : Bool → Parser α} {Q : α → Window → Prop}
    (hk : w.next.kind = kind) (h : Gives (f true) w Q) : Gives (nextIs kind >>= f) w Q := by
  rw [gives_nextIs, hk]
  simpa using h

theorem gives_nextIs_false {kind : Kind} {f : Bool → Parser α} {Q : α → Window → Prop}
    (hk : w.next.kind ≠ kind) (h : Gives (f false) w Q) : Gives (nextIs kind >>= f) w Q := by
  rw [gives_nextIs, decide_eq_false hk]
  exact h

/-- The tree `n` up to spans, with the tokens `rest` ahead. -/
def Tree (n : Node) (rest : List Token) (n' : Node) (w : Window) : Prop :=
  n'.erase = n.erase ∧ w.ahead = rest

end Parser

open Ember.Parser

/-- The rules parse the tokens as the reading says, in front of any tokens that start
with one of kind `k`, if there are levels enough. -/
def Reading.Runs (ts : List Token) (k : Kind) : Reading → Prop
  | .operand n => ∀ depth w rest, 4 * ts.length ≤ depth + 2 → w.tokens = ts ++ rest →
      Starts rest k → Gives (Parser.operand (parsePhrase depth)) w (Tree n rest)
  | .expression above n => ∀ depth w rest, 4 * ts.length ≤ depth → w.tokens = ts ++ rest →
      Starts rest k → Gives (parsePhrase depth (.expression above)) w (Tree n rest)
  | .operators above left n => ∀ depth m left' w rest, 4 * ts.length ≤ depth →
      left'.isMissing = false → left'.erase = left.erase → ts.length ≤ m → w.ahead = ts ++ rest →
      Starts rest k → Gives (Parser.operators (parsePhrase depth) above left' m) w (Tree n rest)
  | .arguments ns => ∀ depth w rest, 4 * ts.length ≤ depth + 4 → w.ahead = ts ++ rest →
      Starts rest k →
      Gives (Parser.arguments (parsePhrase depth)) w fun r w' => ∃ all, r = some all ∧
        all.toList.map Node.erase = ns.map Node.erase ∧ w'.ahead = rest
  | .moreArguments ns => ∀ depth m found w rest, 4 * ts.length ≤ depth + 4 → ts.length ≤ m + 1 →
      w.ahead = ts ++ rest → Starts rest k →
      Gives (Parser.moreArguments (parsePhrase depth) found m) w fun all w' =>
        all.toList.map Node.erase = (found.toList ++ ns).map Node.erase ∧
        ∃ c, c.kind = .rightParen ∧ w'.ahead = c :: rest
  | .conditional n => ∀ depth w rest, 4 * ts.length ≤ depth + 2 → w.tokens = ts ++ rest →
      Starts rest k → Gives (Parser.conditional (parsePhrase depth)) w (Tree n rest)
  | .block n => ∀ depth w rest, 4 * ts.length ≤ depth → w.tokens = ts ++ rest →
      Starts rest k → Gives (parsePhrase depth .block) w (Tree n rest)
  | .statements ns => k = .rightBrace → ∀ depth opening m found w rest,
      4 * ts.length + 2 ≤ depth → ts.length < m → w.tokens = ts ++ rest → Starts rest k →
      Gives (Parser.blockStatements (parsePhrase depth) opening found m) w fun all w' =>
        all.toList.map Node.erase = (found.toList ++ ns).map Node.erase ∧ w'.tokens = rest
  | .binding n => ∀ depth (finish : Parser Unit) w rest rest', 4 * ts.length ≤ depth →
      w.tokens = ts ++ rest → Starts rest k →
      (∀ w₁ : Window, w₁.ahead = rest → Gives finish w₁ fun _ w₂ => w₂.ahead = rest') →
      (w.current.kind = .letWord ∧
        Gives (Parser.declaration (parsePhrase depth) finish) w (Tree n rest')) ∨
      (w.current.kind = .identifier ∧ w.next.kind = .assign ∧
        Gives (Parser.assignment (parsePhrase depth) finish) w (Tree n rest'))
  | .statement n => ∀ depth w rest, 4 * ts.length + 2 ≤ depth → w.tokens = ts ++ rest →
      Starts rest k → Gives (parsePhrase depth .statement) w (Tree n rest)

variable {ts us vs xs : List Token} {t o c e : Token} {k : Kind} {n : Node} {span : Option Span}

/-! ## Operands -/

/-- A name as an operand is parsed where it stands, whatever follows. -/
theorem runs_identifier (ht : t.kind = .identifier) :
    (Reading.operand (.identifier span t.text)).Runs [t] k := by
  intro depth w rest _ hw _
  rw [operand, gives_current, Window.current_eq hw]
  simp only [ht]
  exact gives_pure ⟨rfl, Window.ahead_eq hw⟩

/-- An integer literal is parsed to its value if it is not too long. -/
theorem runs_integer (ht : t.kind = .integer) (hl : t.text.length ≤ maxDigits) :
    (Reading.operand (.integer span (Text.digitsValue t.text.toList))).Runs [t] k := by
  intro depth w rest _ hw _
  rw [operand, gives_current, Window.current_eq hw]
  simp only [ht]
  rw [integerLiteral, if_neg (Nat.not_lt.2 hl)]
  exact gives_pure ⟨rfl, Window.ahead_eq hw⟩

/-- Behind a sign an operand is parsed with the strength of signs. -/
theorem runs_signed (ht : t.kind = .bang ∨ t.kind = .minus) (hn : n.isMissing = false)
    (h : (Reading.expression signStrength n).Runs ts k) :
    (Reading.operand (.unary span t.text n)).Runs (t :: ts) k := by
  intro depth w rest hd hw hrest
  rw [List.length_cons] at hd
  have hsigned : Gives (signed (parsePhrase depth)) w (Tree (.unary span t.text n) rest) := by
    rw [signed, gives_current, Window.current_eq hw]
    refine gives_advance (Window.ahead_eq hw) (hrest.append ts).ne_nil fun w₁ h₁ => ?_
    refine gives_bind (h depth w₁ rest (by omega) h₁ hrest) ?_
    rintro n' w₂ ⟨he, h₂⟩
    rw [if_neg (Node.present_of_erase he hn), gives_spanFrom]
    exact gives_pure ⟨by rw [Node.erase, Node.erase, he], h₂⟩
  rw [operand, gives_current, Window.current_eq hw]
  rcases ht with ht | ht <;> simpa only [ht] using hsigned

/-- What is in parentheses is parsed up to the closing one, which is passed. -/
theorem runs_grouped (ho : o.kind = .leftParen) (hc : c.kind = .rightParen)
    (h : (Reading.expression lowest n).Runs ts .rightParen) :
    (Reading.operand n).Runs (o :: (ts ++ [c])) k := by
  intro depth w rest hd hw hrest
  rw [List.length_cons, List.length_append] at hd
  rw [List.cons_append, List.append_assoc, List.singleton_append] at hw
  rw [operand, gives_current, Window.current_eq hw]
  simp only [ho]
  rw [grouped]
  refine gives_advance (Window.ahead_eq hw) (by simp) fun w₁ h₁ => ?_
  refine gives_bind (h depth w₁ (c :: rest) (by omega) h₁ (starts_cons hc)) ?_
  rintro n' w₂ ⟨he, h₂⟩
  exact gives_past h₂ hc fun w₃ h₃ => gives_pure ⟨he, Window.ahead_eq h₃⟩

/-- A conditional is parsed as an operand where it starts with its keyword. -/
theorem runs_choice (hs : Starts ts .ifWord) (h : (Reading.conditional n).Runs ts k) :
    (Reading.operand n).Runs ts k := by
  intro depth w rest hd hw hrest
  have hc := h depth w rest hd hw hrest
  obtain ⟨t, us, rfl, ht⟩ := hs
  rw [operand, gives_current, Window.current_eq hw]
  simpa only [ht] using hc

/-! ## Functions -/

/-- Further parameters are collected by induction on how they are read, and the parse stands at the
closing parenthesis. -/
theorem moreParameters_gives {ps : List Token} {names : List Name} (h : MoreParameters ps names) :
    ∀ (m : Nat) (found : Array Name) (w : Window) (rest : List Token), ps.length ≤ m →
      w.ahead = ps ++ rest → Gives (moreParameters found m) w fun r w' => ∃ all, r = some all ∧
        all.toList.map Name.text = (found.toList ++ names).map Name.text ∧
        ∃ c, w'.tokens = c :: rest := by
  induction h with
  | close hc =>
    intro m found w rest hm hw
    obtain ⟨m, rfl⟩ := Nat.exists_eq_add_of_le' (Nat.one_le_of_lt hm)
    rw [moreParameters]
    refine gives_nextIs_false (by rw [Window.next_eq hw, hc]; decide) ?_
    refine gives_expect hw hc fun w₁ h₁ => ?_
    exact gives_pure ⟨found, rfl, by simp, _, h₁⟩
  | next hc ht _ ih =>
    intro m found w rest hm hw
    rw [List.length_cons, List.length_cons] at hm
    obtain ⟨m, rfl⟩ := Nat.exists_eq_add_of_le' (by omega : 1 ≤ m)
    rw [moreParameters]
    refine gives_nextIs_true (by rw [Window.next_eq hw, hc]) ?_
    refine gives_advance hw (List.cons_ne_nil _ _) fun w₁ h₁ => ?_
    refine gives_expect (Window.ahead_eq h₁) ht fun w₂ h₂ => ?_
    rw [if_pos rfl, gives_current, Window.current_eq h₂]
    refine (ih m _ w₂ rest (by omega) (Window.ahead_eq h₂)).imp ?_
    rintro r w₃ ⟨all, hr, hall, h₃⟩
    exact ⟨all, hr, by rw [hall]; simp [nameOf], h₃⟩

/-- Parameters are parsed to their names, and the parse stands at the closing parenthesis. -/
theorem parameters_gives {ps rest : List Token} {names : List Name} {w : Window}
    (h : Parameters ps names) (hw : w.ahead = ps ++ rest) :
    Gives parameters w fun r w' => ∃ all, r = some all ∧
      all.toList.map Name.text = names.map Name.text ∧ ∃ c, w'.tokens = c :: rest := by
  rw [parameters]
  cases h with
  | none hc =>
    refine gives_nextIs_true (by rw [Window.next_eq hw, hc]) ?_
    refine gives_advance hw (List.cons_ne_nil _ _) fun w₁ h₁ => ?_
    exact gives_pure ⟨#[], rfl, rfl, _, h₁⟩
  | some ht hmore =>
    refine gives_nextIs_false (by rw [Window.next_eq hw, ht]; decide) ?_
    refine gives_expect hw ht fun w₁ h₁ => ?_
    rw [if_pos rfl, gives_current, gives_remaining, Window.current_eq h₁]
    have hlen := congrArg List.length (Window.ahead_eq h₁)
    rw [List.append_eq, List.length_append] at hlen
    refine (moreParameters_gives hmore _ _ w₁ rest (by omega) (Window.ahead_eq h₁)).imp ?_
    rintro r w₂ ⟨all, hr, hall, h₂⟩
    exact ⟨all, hr, by rw [hall]; simp [nameOf], h₂⟩

/-- A function is parsed keyword, parameters and body in turn. -/
theorem runs_function {ps : List Token} {names : List Name} {body : Node}
    (ht : t.kind = .functionWord) (ho : o.kind = .leftParen) (hps : Parameters ps names)
    (hs : Starts ts .leftBrace) (h : (Reading.block body).Runs ts k) :
    (Reading.operand (.function span names body)).Runs (t :: o :: (ps ++ ts)) k := by
  intro depth w rest hd hw hrest
  simp only [List.length_cons, List.length_append] at hd
  rw [operand, gives_current, Window.current_eq hw]
  simp only [ht]
  rw [function, gives_current]
  refine gives_past (Window.ahead_eq hw) ho fun w₁ h₁ => ?_
  have ha₁ := Window.ahead_eq h₁
  rw [List.append_eq, List.append_assoc] at ha₁
  refine gives_bind (parameters_gives hps ha₁) ?_
  rintro r w₂ ⟨all, rfl, hall, c, h₂⟩
  obtain ⟨b, us, rfl, hb⟩ := hs
  refine gives_past (Window.ahead_eq h₂) hb fun w₃ h₃ => ?_
  refine gives_bind (h depth w₃ rest (by simp only [List.length_cons] at hd ⊢; omega) h₃ hrest) ?_
  rintro body' w₄ ⟨he, h₄⟩
  rw [gives_spanFrom]
  refine gives_pure ⟨?_, h₄⟩
  have hnames : all.toList.map (fun p => { text := p.text : Name }) =
      names.map fun p => { text := p.text } := by
    have := congrArg (List.map fun text => { text := text : Name }) hall
    rwa [List.map_map, List.map_map] at this
  rw [Node.erase, Node.erase, he, hnames]

/-! ## Operators and calls -/

/-- An expression is parsed operand first, and then the operators behind it. -/
theorem runs_expression {above : Nat} {left : Node} (hne : ts ≠ []) (hl : left.isMissing = false)
    (h₁ : (Reading.operand left).Runs ts (firstKind us k))
    (h₂ : (Reading.operators above left n).Runs us k) :
    (Reading.expression above n).Runs (ts ++ us) k := by
  intro depth w rest hd hw hrest
  rw [List.length_append] at hd
  have hpos := List.length_pos_iff.2 hne
  obtain ⟨depth, rfl⟩ := Nat.exists_eq_add_of_le' (by omega : 2 ≤ depth)
  rw [List.append_assoc] at hw
  rw [parsePhrase, Parser.expression]
  refine gives_bind (h₁ depth w (us ++ rest) (by omega) hw (hrest.append us)) ?_
  rintro left' w₁ ⟨he, ha⟩
  rw [gives_remaining]
  have hlen := congrArg List.length ha
  rw [List.length_append] at hlen
  refine h₂ depth _ left' w₁ rest (by omega) ?_ he (by omega) ha hrest
  rw [← left'.isMissing_erase, he, left.isMissing_erase, hl]

/-- Operators stop in front of a token that binds no more strongly than what is around. -/
theorem runs_stop {above : Nat} (hs : k.strength ≤ above) :
    (Reading.operators above n n).Runs [] k := by
  intro depth m left' w rest _ _ he _ ha hrest
  cases m with
  | zero => exact gives_pure ⟨he, ha⟩
  | succ m =>
    rw [operators, gives_next, if_pos (.inr (by rwa [Window.next_kind_eq ha hrest]))]
    exact gives_pure ⟨he, ha⟩

/-- An operator that binds more strongly is taken with its right operand, and the loop goes on. -/
theorem runs_infixed {above : Nat} {left right : Node} (hs : above < o.kind.strength)
    (ho : o.kind ≠ .leftParen) (hr : right.isMissing = false)
    (h₁ : (Reading.expression o.kind.strength right).Runs ts (firstKind us k))
    (h₂ : (Reading.operators above (.binary span left o.text right) n).Runs us k) :
    (Reading.operators above left n).Runs (o :: (ts ++ us)) k := by
  intro depth m left' w rest hd hl he hm ha hrest
  simp only [List.length_cons, List.length_append] at hd hm
  obtain ⟨m, rfl⟩ := Nat.exists_eq_add_of_le' (by omega : 1 ≤ m)
  rw [List.cons_append, List.append_assoc] at ha
  rw [operators, gives_next, Window.next_eq ha,
    if_neg (by rw [hl]; simpa using hs), if_neg ho]
  refine gives_advance ha (List.cons_ne_nil _ _) fun w₁ h₁' => ?_
  -- the operator makes a tree of both operands, and the loop goes on from that tree
  rw [infixed]
  simp only [bind_assoc]
  rw [gives_current, Window.current_eq h₁']
  refine gives_advance (Window.ahead_eq h₁') ?_ fun w₂ h₂' => ?_
  · exact ((hrest.append us).append ts).ne_nil
  refine gives_bind (h₁ depth w₂ (us ++ rest) (by omega) h₂' (hrest.append us)) ?_
  rintro right' w₃ ⟨he', ha'⟩
  rw [if_neg (Node.present_of_erase he' hr)]
  simp only [bind_assoc]
  rw [gives_spanOver, pure_bind]
  refine h₂ depth m _ w₃ rest (by omega) rfl ?_ (by omega) ha' hrest
  rw [Node.erase, Node.erase, he, he']

/-- A parenthesis behind an operand is taken as a call, and the loop goes on. -/
theorem runs_call {above : Nat} {left : Node} {args : List Node} (hs : above < o.kind.strength)
    (ho : o.kind = .leftParen) (h₁ : (Reading.arguments args).Runs ts (firstKind us k))
    (h₂ : (Reading.operators above (.call span left args) n).Runs us k) :
    (Reading.operators above left n).Runs (o :: (ts ++ us)) k := by
  intro depth m left' w rest hd hl he hm ha hrest
  simp only [List.length_cons, List.length_append] at hd hm
  obtain ⟨m, rfl⟩ := Nat.exists_eq_add_of_le' (by omega : 1 ≤ m)
  rw [List.cons_append, List.append_assoc] at ha
  rw [operators, gives_next, Window.next_eq ha,
    if_neg (by rw [hl]; simpa using hs), if_pos ho]
  refine gives_advance ha (List.cons_ne_nil _ _) fun w₁ h₁' => ?_
  obtain ⟨d, rfl⟩ := Nat.exists_eq_add_of_le' (by omega : 1 ≤ depth)
  rw [parsePhrase, Parser.call]
  simp only [bind_assoc]
  refine gives_bind (h₁ d w₁ (us ++ rest) (by omega) (Window.ahead_eq h₁') (hrest.append us)) ?_
  rintro r w₂ ⟨all, rfl, hall, ha'⟩
  simp only [bind_assoc]
  rw [gives_spanOver, pure_bind]
  refine h₂ (d + 1) m _ w₂ rest (by omega) rfl ?_ (by omega) ha' hrest
  rw [Node.erase, Node.erase, he, Node.eraseAll_eq_map, Node.eraseAll_eq_map, hall]

/-- A closing parenthesis at once leaves no arguments. -/
theorem runs_noArguments (hc : c.kind = .rightParen) : (Reading.arguments []).Runs [c] k := by
  intro depth w rest _ ha _
  rw [arguments]
  refine gives_nextIs_true (by rw [Window.next_eq ha, hc]) ?_
  refine gives_advance ha (List.cons_ne_nil _ _) fun w₁ h₁ => ?_
  exact gives_pure ⟨#[], rfl, rfl, Window.ahead_eq h₁⟩

theorem runs_lastArgument (hc : c.kind = .rightParen) :
    (Reading.moreArguments []).Runs [c] k := by
  intro depth m found w rest _ _ ha _
  cases m with
  | zero => exact gives_pure ⟨by simp, c, hc, ha⟩
  | succ m =>
    rw [moreArguments]
    refine gives_nextIs_false (by rw [Window.next_eq ha, hc]; decide) ?_
    exact gives_pure ⟨by simp, c, hc, ha⟩

/-- Behind a comma an argument is parsed, and then the further ones. -/
theorem runs_nextArgument {ns : List Node} (hc : c.kind = .comma) (hne : ts ≠ [])
    (h₁ : (Reading.expression lowest n).Runs ts (firstKind us k))
    (h₂ : (Reading.moreArguments ns).Runs us k) :
    (Reading.moreArguments (n :: ns)).Runs (c :: (ts ++ us)) k := by
  intro depth m found w rest hd hm ha hrest
  simp only [List.length_cons, List.length_append] at hd hm
  have hpos := List.length_pos_iff.2 hne
  obtain ⟨m, rfl⟩ := Nat.exists_eq_add_of_le' (by omega : 1 ≤ m)
  rw [List.cons_append, List.append_assoc] at ha
  rw [moreArguments]
  refine gives_nextIs_true (by rw [Window.next_eq ha, hc]) ?_
  refine gives_advance ha (List.cons_ne_nil _ _) fun w₁ h₁' => ?_
  refine gives_advance (Window.ahead_eq h₁') ((hrest.append us).append ts).ne_nil fun w₂ h₂' => ?_
  refine gives_bind (h₁ depth w₂ (us ++ rest) (by omega) h₂' (hrest.append us)) ?_
  rintro n' w₃ ⟨he, ha'⟩
  refine (h₂ depth m (found.push n') w₃ rest (by omega) (by omega) ha' hrest).imp ?_
  rintro all w₄ ⟨hall, hend⟩
  refine ⟨?_, hend⟩
  rw [hall, Array.toList_push]
  simp [he]

/-- Arguments that do not start with the closing parenthesis are parsed one by one. -/
theorem runs_arguments {ns : List Node} (ht : t.kind ≠ .rightParen) (hu : us ≠ [])
    (h₁ : (Reading.expression lowest n).Runs (t :: ts) (firstKind us k))
    (h₂ : (Reading.moreArguments ns).Runs us k) :
    (Reading.arguments (n :: ns)).Runs (t :: ts ++ us) k := by
  intro depth w rest hd ha hrest
  simp only [List.length_cons, List.length_append] at hd
  have hpos := List.length_pos_iff.2 hu
  rw [List.append_assoc] at ha
  rw [arguments]
  refine gives_nextIs_false (by rw [Window.next_eq ha]; exact ht) ?_
  refine gives_advance ha (List.cons_ne_nil _ _) fun w₁ hw₁ => ?_
  refine gives_bind (h₁ depth w₁ (us ++ rest) (by simp only [List.length_cons]; omega) hw₁
    (hrest.append us)) ?_
  rintro n' w₂ ⟨he, ha₂⟩
  rw [gives_remaining]
  have hlen := congrArg List.length ha₂
  rw [List.length_append] at hlen
  refine gives_bind (h₂ depth _ #[n'] w₂ rest (by omega) (by omega) ha₂ hrest) ?_
  rintro all w₃ ⟨hall, c, hc, ha₃⟩
  refine gives_expect ha₃ hc fun w₄ hw₄ => ?_
  rw [if_pos rfl]
  refine gives_pure ⟨all, rfl, ?_, Window.ahead_eq hw₄⟩
  rw [hall]
  simp [he]

/-! ## Conditionals and blocks -/

/-- A condition in parentheses, in front of a block. -/
theorem gives_condition {depth : Nat} {condition : Node} {f : Node → Parser Node} {w : Window}
    {rest : List Token} {Q : Node → Window → Prop} (ha : w.ahead = o :: (ts ++ c :: rest))
    (ho : o.kind = .leftParen) (hc : c.kind = .rightParen) (hb : Starts rest .leftBrace)
    (hd : 4 * ts.length ≤ depth) (h : (Reading.expression lowest condition).Runs ts .rightParen)
    (hf : ∀ condition' w₁, condition'.erase = condition.erase → w₁.tokens = rest →
      Gives (f condition') w₁ Q) :
    Gives (past .leftParen do
      advance
      let condition ← parsePhrase depth (.expression lowest)
      past .rightParen <| past .leftBrace (f condition)) w Q := by
  refine gives_past ha ho fun w₁ h₁ => ?_
  refine gives_advance (Window.ahead_eq h₁) (by simp) fun w₂ h₂ => ?_
  refine gives_bind (h depth w₂ (c :: rest) hd h₂ (starts_cons hc)) ?_
  rintro condition' w₃ ⟨he, h₃⟩
  refine gives_past h₃ hc fun w₄ h₄ => ?_
  obtain ⟨b, us, rfl, hb⟩ := hb
  exact gives_past (Window.ahead_eq h₄) hb fun w₅ h₅ => hf condition' w₅ he h₅

section

variable {i : Token} {condition consequence alternative nested : Node} {span₁ span₂ : Option Span}

/-- A conditional without an alternative is parsed where no `else` follows. -/
theorem runs_ifOnly (ho : o.kind = .leftParen) (hc : c.kind = .rightParen)
    (hs : Starts us .leftBrace) (hk : k ≠ .elseWord)
    (h₁ : (Reading.expression lowest condition).Runs ts .rightParen)
    (h₂ : (Reading.block consequence).Runs us k) :
    (Reading.conditional (.conditional span condition consequence .missing)).Runs
      (i :: o :: (ts ++ c :: us)) k := by
  intro depth w rest hd hw hrest
  simp only [List.length_cons, List.length_append] at hd
  have ha := Window.ahead_eq hw
  rw [List.append_eq, List.cons_append, List.append_assoc, List.cons_append] at ha
  rw [conditional, gives_current]
  refine gives_condition ha ho hc (hs.append_left rest) (by omega) h₁ fun condition' w₁ he hw₁ => ?_
  refine gives_bind (h₂ depth w₁ rest (by omega) hw₁ hrest) ?_
  rintro consequence' w₂ ⟨he', ha₂⟩
  refine gives_nextIs_false (by rwa [Window.next_kind_eq ha₂ hrest]) ?_
  rw [if_neg (by decide), gives_spanFrom]
  exact gives_pure ⟨by simp only [Node.erase, he, he'], ha₂⟩

/-- A conditional with a block for its alternative is parsed part by part. -/
theorem runs_ifElse (ho : o.kind = .leftParen) (hc : c.kind = .rightParen)
    (hs : Starts us .leftBrace) (he : e.kind = .elseWord) (hs' : Starts vs .leftBrace)
    (h₁ : (Reading.expression lowest condition).Runs ts .rightParen)
    (h₂ : (Reading.block consequence).Runs us .elseWord)
    (h₃ : (Reading.block alternative).Runs vs k) :
    (Reading.conditional (.conditional span condition consequence alternative)).Runs
      (i :: o :: (ts ++ c :: (us ++ e :: vs))) k := by
  intro depth w rest hd hw hrest
  simp only [List.length_cons, List.length_append] at hd
  have ha := Window.ahead_eq hw
  simp only [List.append_eq, List.cons_append, List.append_assoc] at ha
  rw [conditional, gives_current]
  refine gives_condition ha ho hc (hs.append_left _) (by omega) h₁ fun condition' w₁ hce hw₁ => ?_
  refine gives_bind (h₂ depth w₁ (e :: (vs ++ rest)) (by omega) hw₁ (starts_cons he)) ?_
  rintro consequence' w₂ ⟨hqe, ha₂⟩
  refine gives_nextIs_true (by rw [Window.next_eq ha₂, he]) ?_
  rw [if_pos rfl]
  refine gives_advance ha₂ (by simp) fun w₃ hw₃ => ?_
  obtain ⟨b, bs, rfl, hb⟩ := hs'
  refine gives_nextIs_false (by rw [Window.next_eq (Window.ahead_eq hw₃), hb]; decide) ?_
  rw [if_neg (by decide)]
  refine gives_past (Window.ahead_eq hw₃) hb fun w₄ hw₄ => ?_
  refine gives_bind (h₃ depth w₄ rest (by simp only [List.length_cons] at hd ⊢; omega) hw₄ hrest) ?_
  rintro alternative' w₅ ⟨hae, ha₅⟩
  rw [gives_spanFrom]
  exact gives_pure ⟨by rw [Node.erase, Node.erase, hce, hqe, hae], ha₅⟩

/-- A conditional as an alternative gets a block and a statement of its own around it. -/
theorem runs_elseIf (ho : o.kind = .leftParen) (hc : c.kind = .rightParen)
    (hs : Starts us .leftBrace) (he : e.kind = .elseWord) (hs' : Starts vs .ifWord)
    (hn : nested.isMissing = false)
    (h₁ : (Reading.expression lowest condition).Runs ts .rightParen)
    (h₂ : (Reading.block consequence).Runs us .elseWord)
    (h₃ : (Reading.conditional nested).Runs vs k) :
    (Reading.conditional (.conditional span condition consequence
      (.block span₁ [.expression span₂ nested]))).Runs
      (i :: o :: (ts ++ c :: (us ++ e :: vs))) k := by
  intro depth w rest hd hw hrest
  simp only [List.length_cons, List.length_append] at hd
  have ha := Window.ahead_eq hw
  simp only [List.append_eq, List.cons_append, List.append_assoc] at ha
  rw [conditional, gives_current]
  refine gives_condition ha ho hc (hs.append_left _) (by omega) h₁ fun condition' w₁ hce hw₁ => ?_
  refine gives_bind (h₂ depth w₁ (e :: (vs ++ rest)) (by omega) hw₁ (starts_cons he)) ?_
  rintro consequence' w₂ ⟨hqe, ha₂⟩
  refine gives_nextIs_true (by rw [Window.next_eq ha₂, he]) ?_
  rw [if_pos rfl]
  refine gives_advance ha₂ (by simp) fun w₃ hw₃ => ?_
  obtain ⟨b, bs, rfl, hb⟩ := hs'
  refine gives_nextIs_true (by rw [Window.next_eq (Window.ahead_eq hw₃), hb]) ?_
  rw [if_pos rfl]
  refine gives_advance (Window.ahead_eq hw₃) (List.cons_ne_nil _ _) fun w₄ hw₄ => ?_
  obtain ⟨d, rfl⟩ := Nat.exists_eq_add_of_le' (by omega : 1 ≤ depth)
  rw [parsePhrase]
  refine gives_bind (h₃ d w₄ rest (by simp only [List.length_cons] at hd ⊢; omega) hw₄ hrest) ?_
  rintro nested' w₅ ⟨hne, ha₅⟩
  rw [if_neg (Node.present_of_erase hne hn), gives_spanFrom]
  refine gives_pure ⟨?_, ha₅⟩
  simp only [Node.erase, Node.eraseAll, hce, hqe, hne]

/-- A block is parsed from brace to brace. -/
theorem runs_block {ns : List Node} (hc : c.kind = .rightBrace)
    (h : (Reading.statements ns).Runs ts .rightBrace) :
    (Reading.block (.block span ns)).Runs (o :: (ts ++ [c])) k := by
  intro depth w rest hd hw hrest
  simp only [List.length_cons, List.length_append] at hd
  rw [List.cons_append, List.append_assoc, List.singleton_append] at hw
  obtain ⟨d, rfl⟩ := Nat.exists_eq_add_of_le' (by omega : 1 ≤ depth)
  rw [parsePhrase, Parser.block, gives_current, Window.current_eq hw]
  refine gives_advance (Window.ahead_eq hw) (by simp) fun w₁ hw₁ => ?_
  rw [gives_remaining]
  have hlen := congrArg List.length hw₁
  simp only [Window.tokens, List.length_append, List.length_cons] at hlen
  refine gives_bind (h rfl d o _ #[] w₁ (c :: rest) (by omega) (by omega) hw₁ (starts_cons hc)) ?_
  rintro all w₂ ⟨hall, hw₂⟩
  rw [gives_spanFrom]
  refine gives_pure ⟨?_, Window.ahead_eq hw₂⟩
  rw [Node.erase, Node.erase, Node.eraseAll_eq_map, Node.eraseAll_eq_map, hall]
  rfl

end

/-! ## Statements -/

/-- Without tokens there are no statements, whatever was found before. -/
theorem runs_noStatements : (Reading.statements []).Runs [] k := by
  rintro rfl depth opening m found w rest _ hm hw hrest
  obtain ⟨m, rfl⟩ := Nat.exists_eq_add_of_le' (Nat.one_le_of_lt hm)
  obtain ⟨c, us, rfl, hc⟩ := hrest
  rw [blockStatements, gives_current, Window.current_eq hw, if_pos hc]
  exact gives_pure ⟨by simp, hw⟩

/-- A statement is parsed, kept, and followed by the others. -/
theorem runs_statements {ns : List Node} (hn : n.isMissing = false)
    (ht : t.kind ≠ .rightBrace ∧ t.kind ≠ .endOfText)
    (h₁ : (Reading.statement n).Runs (t :: ts) (firstKind us k))
    (h₂ : (Reading.statements ns).Runs us k) :
    (Reading.statements (n :: ns)).Runs (t :: ts ++ us) k := by
  intro hk depth opening m found w rest hd hm hw hrest
  simp only [List.length_cons, List.length_append] at hd hm
  obtain ⟨m, rfl⟩ := Nat.exists_eq_add_of_le' (by omega : 1 ≤ m)
  rw [List.append_assoc] at hw
  rw [blockStatements, gives_current, Window.current_eq hw, if_neg ht.1, if_neg ht.2]
  refine gives_bind (h₁ depth w (us ++ rest) (by simp only [List.length_cons]; omega) hw
    (hrest.append us)) ?_
  rintro n' w₁ ⟨he, ha₁⟩
  refine gives_advance ha₁ (hrest.append us).ne_nil fun w₂ hw₂ => ?_
  rw [if_neg (Node.present_of_erase he hn)]
  refine (h₂ hk depth opening m _ w₂ rest (by omega) (by omega) hw₂ hrest).imp ?_
  rintro all w₃ ⟨hall, hw₃⟩
  refine ⟨?_, hw₃⟩
  rw [hall, Array.toList_push]
  simp [he]

/-- A declaration is parsed up to the end of its value. -/
theorem runs_declaration {l a : Token} {value : Node} {span₁ : Option Span}
    (hl : l.kind = .letWord) (ht : t.kind = .identifier) (ha : a.kind = .assign)
    (h : (Reading.expression lowest value).Runs ts k) :
    (Reading.binding (.declaration span ⟨t.text, span₁⟩ value)).Runs (l :: t :: a :: ts) k := by
  intro depth finish w rest rest' hd hw hrest hfinish
  simp only [List.length_cons] at hd
  have hc := Window.current_eq hw
  refine .inl ⟨by rw [hc, hl], ?_⟩
  rw [declaration, gives_current]
  refine gives_past (Window.ahead_eq hw) ht fun w₁ hw₁ => ?_
  rw [gives_current, Window.current_eq hw₁]
  refine gives_past (Window.ahead_eq hw₁) ha fun w₂ hw₂ => ?_
  refine gives_advance (Window.ahead_eq hw₂) (hrest.append ts).ne_nil fun w₃ hw₃ => ?_
  refine gives_bind (h depth w₃ rest (by omega) hw₃ hrest) ?_
  rintro value' w₄ ⟨he, ha₄⟩
  refine gives_bind (hfinish w₄ ha₄) fun _ w₅ ha₅ => ?_
  rw [gives_spanFrom]
  exact gives_pure ⟨by rw [Node.erase, Node.erase, he]; rfl, ha₅⟩

/-- An assignment is parsed up to the end of its value. -/
theorem runs_assignment {a : Token} {value : Node} {span₁ : Option Span}
    (ht : t.kind = .identifier) (ha : a.kind = .assign)
    (h : (Reading.expression lowest value).Runs ts k) :
    (Reading.binding (.assignment span ⟨t.text, span₁⟩ value)).Runs (t :: a :: ts) k := by
  intro depth finish w rest rest' hd hw hrest hfinish
  simp only [List.length_cons] at hd
  have hc := Window.current_eq hw
  refine .inr ⟨by rw [hc, ht], by rw [Window.next_eq (Window.ahead_eq hw), ha], ?_⟩
  rw [assignment, gives_current, hc]
  refine gives_past (Window.ahead_eq hw) ha fun w₁ hw₁ => ?_
  refine gives_advance (Window.ahead_eq hw₁) (hrest.append ts).ne_nil fun w₂ hw₂ => ?_
  refine gives_bind (h depth w₂ rest (by omega) hw₂ hrest) ?_
  rintro value' w₃ ⟨he, ha₃⟩
  refine gives_bind (hfinish w₃ ha₃) fun _ w₄ ha₄ => ?_
  rw [gives_spanFrom]
  exact gives_pure ⟨by rw [Node.erase, Node.erase, he]; rfl, ha₄⟩

/-- A semicolon is taken if it is there, and what is ahead then is the rest. -/
theorem terminator_gives {w : Window} {rest : List Token} (h : Terminator us k)
    (ha : w.ahead = us ++ rest) (hrest : Starts rest k) :
    Gives terminator w fun _ w' => w'.ahead = rest := by
  rw [terminator]
  cases h with
  | semicolon ht =>
    refine gives_nextIs_true (by rw [Window.next_eq ha, ht]) ?_
    rw [if_pos rfl]
    exact ⟨(), w.advance, ⟨rfl, w.advance_problems⟩, Window.advance_ahead_eq ha⟩
  | omitted hk =>
    refine gives_nextIs_false (by rwa [Window.next_kind_eq ha hrest]) ?_
    exact gives_pure ha

/-- A declaration or an assignment is a statement with the semicolon behind it. -/
theorem runs_binding (h : (Reading.binding n).Runs ts (firstKind us k)) (hu : Terminator us k) :
    (Reading.statement n).Runs (ts ++ us) k := by
  intro depth w rest hd hw hrest
  rw [List.length_append] at hd
  obtain ⟨d, rfl⟩ := Nat.exists_eq_add_of_le' (by omega : 2 ≤ depth)
  rw [List.append_assoc] at hw
  rw [parsePhrase, Parser.statement, gives_current]
  rcases h d terminator w (us ++ rest) rest (by omega) hw (hrest.append us)
    (fun w₁ ha₁ => terminator_gives hu ha₁ hrest) with ⟨hl, hb⟩ | ⟨hi, ha, hb⟩
  · simpa only [hl] using hb
  · simp only [hi]
    exact gives_nextIs_true ha (by rwa [if_pos rfl])

/-- An expression is parsed as a statement where it is not begun like another one. -/
theorem runs_expressionStatement (hn : n.isMissing = false) (ht : t.kind.beginsExpression)
    (h : (Reading.expression lowest n).Runs (t :: ts) (firstKind us k)) (hu : Terminator us k)
    (ha : t.kind = .identifier → firstKind (ts ++ us) k ≠ .assign) :
    (Reading.statement (.expression span n)).Runs (t :: ts ++ us) k := by
  intro depth w rest hd hw hrest
  rw [List.length_append] at hd
  obtain ⟨d, rfl⟩ := Nat.exists_eq_add_of_le' (by omega : 2 ≤ depth)
  have hnext := Window.next_kind_eq (Window.ahead_eq hw) (hrest.append (ts ++ us))
  rw [List.append_assoc] at hw
  have hstatement : Gives (expressionStatement (parsePhrase d)) w
      (Tree (.expression span n) rest) := by
    rw [expressionStatement, gives_current]
    refine gives_bind (h d w (us ++ rest) (by omega) hw (hrest.append us)) ?_
    rintro n' w₁ ⟨he, ha₁⟩
    rw [if_neg (Node.present_of_erase he hn)]
    refine gives_bind (terminator_gives hu ha₁ hrest) fun _ w₂ ha₂ => ?_
    rw [gives_spanFrom]
    exact gives_pure ⟨by rw [Node.erase, Node.erase, he], ha₂⟩
  rw [parsePhrase, Parser.statement, gives_current, Window.current_eq hw]
  -- no expression starts with the first word of another statement
  split
  · next hk => rw [hk] at ht; exact absurd ht (by decide)
  · next hk => rw [hk] at ht; exact absurd ht (by decide)
  · next hk => rw [hk] at ht; exact absurd ht (by decide)
  · next hk => exact gives_nextIs_false (by rw [hnext]; exact ha hk) hstatement
  · exact hstatement

section

variable {l s₁ s₂ : Token} {init condition post body : Node}

/-- A loop is parsed condition and body in turn. -/
theorem runs_whileLoop (hl : l.kind = .whileWord) (ho : o.kind = .leftParen)
    (hc : c.kind = .rightParen) (hs : Starts us .leftBrace)
    (h₁ : (Reading.expression lowest condition).Runs ts .rightParen)
    (h₂ : (Reading.block body).Runs us k) :
    (Reading.statement (.whileLoop span condition body)).Runs (l :: o :: (ts ++ c :: us)) k := by
  intro depth w rest hd hw hrest
  simp only [List.length_cons, List.length_append] at hd
  obtain ⟨d, rfl⟩ := Nat.exists_eq_add_of_le' (by omega : 2 ≤ depth)
  have ha := Window.ahead_eq hw
  simp only [List.append_eq, List.cons_append, List.append_assoc] at ha
  rw [parsePhrase, Parser.statement, gives_current, Window.current_eq hw]
  simp only [hl]
  rw [whileLoop, gives_current]
  refine gives_condition ha ho hc (hs.append_left _) (by omega) h₁ fun condition' w₁ hce hw₁ => ?_
  refine gives_bind (h₂ d w₁ rest (by omega) hw₁ hrest) ?_
  rintro body' w₂ ⟨hbe, ha₂⟩
  rw [gives_spanFrom]
  exact gives_pure ⟨by rw [Node.erase, Node.erase, hce, hbe], ha₂⟩

/-- A declaration or an assignment is parsed as a clause of a counting loop too. -/
theorem clause_gives {depth : Nat} {name : String} {w : Window} {rest : List Token}
    (h : (Reading.binding n).Runs ts k) (hd : 4 * ts.length ≤ depth) (hw : w.tokens = ts ++ rest)
    (hrest : Starts rest k) : Gives (clause (parsePhrase depth) name) w (Tree n rest) := by
  rw [clause, gives_current]
  rcases h depth (return ()) w rest rest hd hw hrest (fun _ ha₁ => gives_pure ha₁) with
    ⟨hl, hb⟩ | ⟨hi, ha, hb⟩
  · rwa [if_pos hl]
  · rw [if_neg (by rw [hi]; decide), gives_next, if_pos ⟨hi, ha⟩]
    exact hb

/-- A counting loop is parsed clause by clause, and then its body. -/
theorem runs_forLoop (hl : l.kind = .forWord) (ho : o.kind = .leftParen)
    (hs₁ : s₁.kind = .semicolon) (hs₂ : s₂.kind = .semicolon) (hc : c.kind = .rightParen)
    (hs : Starts xs .leftBrace) (hinit : init.isMissing = false) (hpost : post.isMissing = false)
    (h₁ : (Reading.binding init).Runs ts .semicolon)
    (h₂ : (Reading.expression lowest condition).Runs us .semicolon)
    (h₃ : (Reading.binding post).Runs vs .rightParen) (h₄ : (Reading.block body).Runs xs k) :
    (Reading.statement (.forLoop span init condition post body)).Runs
      (l :: o :: (ts ++ s₁ :: (us ++ s₂ :: (vs ++ c :: xs)))) k := by
  intro depth w rest hd hw hrest
  simp only [List.length_cons, List.length_append] at hd
  obtain ⟨d, rfl⟩ := Nat.exists_eq_add_of_le' (by omega : 2 ≤ depth)
  have ha := Window.ahead_eq hw
  simp only [List.append_eq, List.cons_append, List.append_assoc] at ha
  rw [parsePhrase, Parser.statement, gives_current, Window.current_eq hw]
  simp only [hl]
  rw [forLoop, gives_current]
  refine gives_past ha ho fun w₁ hw₁ => ?_
  refine gives_advance (Window.ahead_eq hw₁) (by simp) fun w₂ hw₂ => ?_
  refine gives_bind (clause_gives h₁ (by omega) hw₂ (starts_cons hs₁)) ?_
  rintro init' w₃ ⟨hie, ha₃⟩
  rw [if_neg (Node.present_of_erase hie hinit)]
  refine gives_past ha₃ hs₁ fun w₄ hw₄ => ?_
  refine gives_advance (Window.ahead_eq hw₄) (by simp) fun w₅ hw₅ => ?_
  refine gives_bind (h₂ d w₅ _ (by omega) hw₅ (starts_cons hs₂)) ?_
  rintro condition' w₆ ⟨hce, ha₆⟩
  refine gives_past ha₆ hs₂ fun w₇ hw₇ => ?_
  refine gives_advance (Window.ahead_eq hw₇) (by simp) fun w₈ hw₈ => ?_
  refine gives_bind (clause_gives h₃ (by omega) hw₈ (starts_cons hc)) ?_
  rintro post' w₉ ⟨hpe, ha₉⟩
  rw [if_neg (Node.present_of_erase hpe hpost)]
  refine gives_past ha₉ hc fun w₁₀ hw₁₀ => ?_
  obtain ⟨b, bs, rfl, hb⟩ := hs
  refine gives_past (Window.ahead_eq hw₁₀) hb fun w₁₁ hw₁₁ => ?_
  refine gives_bind (h₄ d w₁₁ rest (by simp only [List.length_cons] at hd ⊢; omega) hw₁₁ hrest) ?_
  rintro body' w₁₂ ⟨hbe, ha₁₂⟩
  rw [gives_spanFrom]
  exact gives_pure ⟨by rw [Node.erase, Node.erase, hie, hce, hpe, hbe], ha₁₂⟩

end

/-! ## All readings -/

theorem Reads.starts_brace (h : Reads (.block n) ts k) : Starts ts .leftBrace := h.first trivial

theorem Reads.starts_if (h : Reads (.conditional n) ts k) : Starts ts .ifWord := h.first trivial

/-- **Tokens that are read as a tree are parsed to it.** -/
theorem Reads.runs {r : Reading} (h : Reads r ts k) : r.Runs ts k := by
  induction h with
  | identifier ht => exact runs_identifier ht
  | integer ht hl => exact runs_integer ht hl
  | signed ht h ih => exact runs_signed ht h.present ih
  | grouped ho _ hc ih => exact runs_grouped ho hc ih
  | choice h ih => exact runs_choice h.starts_if ih
  | function hf ho hps h ih => exact runs_function hf ho hps h.starts_brace ih
  | expression h _ ih₁ ih₂ => exact runs_expression (h.ne_nil trivial) h.present ih₁ ih₂
  | stop hs => exact runs_stop hs
  | infixed hs ho h _ ih₁ ih₂ => exact runs_infixed hs ho h.present ih₁ ih₂
  | call hs ho _ _ ih₁ ih₂ => exact runs_call hs ho ih₁ ih₂
  | noArguments hc => exact runs_noArguments hc
  | arguments h₁ h₂ ih₁ ih₂ =>
    obtain ⟨t, ts, rfl, ht⟩ := h₁.first trivial
    exact runs_arguments (fun hk => by rw [Reading.First, hk] at ht; cases ht)
      (h₂.ne_nil trivial) ih₁ ih₂
  | lastArgument hc => exact runs_lastArgument hc
  | nextArgument hc h _ ih₁ ih₂ => exact runs_nextArgument hc (h.ne_nil trivial) ih₁ ih₂
  | ifOnly _ ho _ hc h hk ih₁ ih₂ => exact runs_ifOnly ho hc h.starts_brace hk ih₁ ih₂
  | ifElse _ ho _ hc h he h' ih₁ ih₂ ih₃ =>
    exact runs_ifElse ho hc h.starts_brace he h'.starts_brace ih₁ ih₂ ih₃
  | elseIf _ ho _ hc h he h' ih₁ ih₂ ih₃ =>
    exact runs_elseIf ho hc h.starts_brace he h'.starts_if h'.present ih₁ ih₂ ih₃
  | block _ _ hc ih => exact runs_block hc ih
  | noStatements => exact runs_noStatements
  | statements h _ ih₁ ih₂ =>
    obtain ⟨t, ts, rfl, ht⟩ := h.first trivial
    have hk : t.kind ≠ .rightBrace ∧ t.kind ≠ .endOfText := by
      constructor <;>
        · intro hk
          rw [Reading.First, hk] at ht
          exact absurd ht (by decide)
    exact runs_statements h.present hk ih₁ ih₂
  | declaration hl ht ha _ ih => exact runs_declaration hl ht ha ih
  | assignment ht ha _ ih => exact runs_assignment ht ha ih
  | binding _ hu ih => exact runs_binding ih hu
  | expressionStatement h hu ha ih =>
    obtain ⟨t, ts, rfl, ht⟩ := h.first trivial
    exact runs_expressionStatement h.present ht ih hu ha
  | whileLoop hl ho _ hc h ih₁ ih₂ => exact runs_whileLoop hl ho hc h.starts_brace ih₁ ih₂
  | forLoop hl ho hi hs₁ _ hs₂ hp hc h ih₁ ih₂ ih₃ ih₄ =>
    exact runs_forLoop hl ho hs₁ hs₂ hc h.starts_brace hi.present hp.present ih₁ ih₂ ih₃ ih₄

end Ember

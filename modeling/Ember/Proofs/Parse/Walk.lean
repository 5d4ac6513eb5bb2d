import Ember.Proofs.Parse.Moves

/-!
# Walks over the rules

Much of what is true of every parse is true for one reason: it holds of a move over a token and of
a problem that is noted, and it carries over from one step to the next. A `Parser.Walk` is a
judgement with these laws, about what two parses come to from the same window; most judgements look
at one of them only. The rules of the grammar are walked here once for all judgements, from
`Parser.Walk.block` to `Parser.Walk.statement`, and `Parser.Walk.phrase` ties the knot.

What a judgement says may depend on how far a rule has come (`Parser.Point`): where it has not
moved yet it has used up nothing, and where it has just moved nothing was noted behind the current
token.
-/

namespace Ember

namespace Parser

variable {α β : Type}

/-- How far a rule has come. -/
inductive Point where
  /-- A statement, a block, a conditional or a call begins at the current token. -/
  | opening
  /-- An expression begins at the current token. -/
  | start
  /-- Since then something was parsed, but the rule itself did not move. -/
  | begun
  /-- The rule has just moved to the current token. -/
  | moved
  /-- The rule has moved, and something was parsed since. -/
  | behind

namespace Point

/-- The point behind a step. -/
def after : Point → Point
  | opening | start | begun => begun
  | moved | behind => behind

/-- Nothing was parsed at the current token yet. -/
def Fresh : Point → Prop
  | opening | start | moved => True
  | begun | behind => False

/-- A move leads on also where it passes no token. -/
def Free : Point → Prop
  | opening | moved | behind => True
  | start | begun => False

/-- At the first of the points no more is known than at the second one. -/
inductive Below : Point → Point → Prop
  | begun : Below .begun .start
  | start : Below .start .opening
  | opening : Below .opening .moved
  | behind : Below .behind .moved

end Point

/-! ## Parts of the long rules -/

section

variable (self : Phrase → Parser Node)

/-- A conditional behind its consequence. -/
def conditionalRest (first : Token) (condition consequence : Node) : Parser Node := do
  let finish (alternative : Node) : Parser Node := do
    return .conditional (some (← spanFrom first)) condition consequence alternative
  if ← nextIs .elseWord then
    advance
    if ← nextIs .ifWord then
      advance
      let nested ← self .conditional
      if nested.isMissing then return .missing
      else finish (.block nested.span? [.expression nested.span? nested])
    else past .leftBrace do
      finish (← self .block)
  else finish .missing

/-- A conditional is its condition and consequence, and what comes behind them. -/
theorem conditional_eq : conditional self = (do
    let first ← current
    past .leftParen do
      advance
      let condition ← self (.expression lowest)
      past .rightParen <| past .leftBrace do
        let consequence ← self .block
        conditionalRest self first condition consequence) :=
  rfl

/-- A counting loop behind its last clause. -/
def forBody (first : Token) (init condition post : Node) : Parser Node :=
  if post.isMissing then return .missing
  else past .rightParen <| past .leftBrace do
    let body ← self .block
    return .forLoop (some (← spanFrom first)) init condition post body

/-- A counting loop behind its first clause. -/
def forRest (first : Token) (init : Node) : Parser Node :=
  if init.isMissing then return .missing
  else past .semicolon do
    advance
    let condition ← self (.expression lowest)
    past .semicolon do
      advance
      let post ← clause self "post"
      forBody self first init condition post

/-- A counting loop is its first clause, and what comes behind it. -/
theorem forLoop_eq : forLoop self = (do
    let first ← current
    past .leftParen do
      advance
      let init ← clause self "init"
      forRest self first init) :=
  rfl

end

/-! ## Judgements -/

/-- A judgement of two runs from a window, at a point of a rule, with the laws that carry it over
the rules of the grammar. -/
structure Walk where
  Holds : Point → Window → ∀ {α : Type}, Run α → Run α → Prop
  /-- Whether any phrase may begin at the window. An expression may begin anywhere. -/
  Stands : Window → Prop
  stands {w : Window} : (w.Ended → w.ahead ≠ []) → Stands w
  weaken {point point' : Point} {w : Window} {α : Type} {r r' : Run α} :
    point.Below point' → Holds point w r r' → Holds point' w r r'
  pure (point : Point) (w : Window) {α : Type} (a : α) :
    Holds point w (.ok a w : Run α) (.ok a w)
  bind {point : Point} {w : Window} {α β : Type} {r r' : Run α} {f g : α → Parser β} :
    Holds point w r r' → (∀ a w', Holds point.after w' (f a w') (g a w')) →
      Holds point w (r.andThen f) (r'.andThen g)
  /-- From the next token on a rule may do what it may do behind a move. -/
  advance {point : Point} {w : Window} {α : Type} {r r' : Run α} : point.Free ∨ Stands w →
    Holds .moved w.advance r r' → Holds point w r r'
  /-- A problem may be noted at the current token where nothing was parsed. -/
  note_current {point : Point} {w : Window} {α : Type} {r r' : Run α} {cause : SyntaxCause}
    {quoted : Token} : point.Fresh → cause ≠ .tooDeep →
      Holds point.after (w.note cause w.current quoted) r r' → Holds point w r r'
  note_next {point : Point} {w : Window} {α : Type} {r r' : Run α} {cause : SyntaxCause} :
    cause ≠ .tooDeep → Holds point.after (w.note cause w.next w.next) r r' → Holds point w r r'
  /-- A literal is refused where it stands. -/
  refuse {w : Window} {α : Type} : w.current.kind = .integer →
    maxDigits < w.current.text.length →
      Holds .start w (.error (.literalTooLong w.current.text.length) w : Run α)
        (.error (.literalTooLong w.current.text.length) w)

namespace Walk

variable {W : Walk} {point : Point} {w : Window}

/-- The judgement of two steps at a window. -/
def At (W : Walk) (point : Point) (w : Window) (x y : Parser α) : Prop :=
  W.Holds point w (x w) (y w)

/-! ## Windows at which phrases begin -/

/-- Any phrase may begin where a token is ahead. -/
theorem stands_of_ahead (h : w.ahead ≠ []) : W.Stands w :=
  W.stands fun _ => h

/-- Any phrase may begin at a token that is not the end of the text. -/
theorem stands_of_current (h : w.current.kind ≠ .endOfText) : W.Stands w :=
  W.stands fun hw => hw.ahead_ne_nil h

/-- Where the next token is not the end of the text, neither is the current one. -/
theorem stands_of_next {kind : Kind} (h : w.next.kind = kind) (hk : kind ≠ .endOfText) :
    W.Stands w := by
  refine W.stands fun hw hnil => hk ?_
  rw [← h, hw.next_kind, hnil, firstKind_nil]

/-- After a move to a token that is not the end of the text any phrase may begin. -/
theorem stands_advance {kind : Kind} (h : w.next.kind = kind) (hk : kind ≠ .endOfText) :
    W.Stands w.advance := by
  refine stands_of_current ?_
  rw [w.advance_current, h]
  exact hk

/-! ## Steps -/

namespace At

theorem opening {x y : Parser α} (h : W.At .start w x y) : W.At .opening w x y :=
  W.weaken .start h

theorem moved {x y : Parser α} (h : W.At .opening w x y) : W.At .moved w x y :=
  W.weaken .opening h

theorem pure (a : α) : W.At point w (Pure.pure a) (Pure.pure a) :=
  W.pure point w a

/-- Behind a step the next one is judged from wherever the first one came to. -/
theorem bind {x y : Parser α} {f g : α → Parser β} (h : W.At point w x y)
    (hf : ∀ a w', W.At point.after w' (f a) (g a)) : W.At point w (x >>= f) (y >>= g) := by
  unfold At
  rw [bind_eq_andThen, bind_eq_andThen]
  exact W.bind h hf

/-- A step that reads the current token is judged with the token at hand. -/
theorem current {f g : Token → Parser α} (h : W.At point w (f w.current) (g w.current)) :
    W.At point w (Parser.current >>= f) (Parser.current >>= g) :=
  h

theorem next {f g : Token → Parser α} (h : W.At point w (f w.next) (g w.next)) :
    W.At point w (Parser.next >>= f) (Parser.next >>= g) :=
  h

theorem remaining {f g : Nat → Parser α} (h : W.At point w (f w.ahead.length) (g w.ahead.length)) :
    W.At point w (Parser.remaining >>= f) (Parser.remaining >>= g) :=
  h

/-- A step that leaves the window as it is leaves the point as it is. -/
theorem looks {x : Parser α} [hx : Looks x] {f g : α → Parser β}
    (h : ∀ a, W.At point w (f a) (g a)) : W.At point w (x >>= f) (x >>= g) := by
  obtain ⟨a, ha⟩ := hx.run w
  unfold At
  rw [bind_apply, bind_apply, ha]
  exact h a

/-- Both sides of a choice are judged where they are chosen. -/
theorem ite {c : Prop} [Decidable c] {x y x' y' : Parser α} (hx : c → W.At point w x x')
    (hy : ¬ c → W.At point w y y') :
    W.At point w (if c then x else y) (if c then x' else y') := by
  by_cases h : c
  · rw [if_pos h, if_pos h]
    exact hx h
  · rw [if_neg h, if_neg h]
    exact hy h

/-- A choice by the next token. -/
theorem nextIs {kind : Kind} {x y x' y' : Parser α} (hx : w.next.kind = kind → W.At point w x x')
    (hy : W.At point w y y') :
    W.At point w (Parser.nextIs kind >>= fun there => if there then x else y)
      (Parser.nextIs kind >>= fun there => if there then x' else y') := by
  change W.At point w (if decide (w.next.kind = kind) = true then x else y)
    (if decide (w.next.kind = kind) = true then x' else y')
  exact .ite (fun h => hx (of_decide_eq_true h)) fun _ => hy

/-- A move is judged by what follows it, with nothing parsed at the new token yet. -/
theorem advance {f g : Unit → Parser α} (hmove : point.Free ∨ W.Stands w)
    (h : W.At .moved w.advance (f ()) (g ())) :
    W.At point w (Parser.advance >>= f) (Parser.advance >>= g) :=
  W.advance hmove h

/-- A move over the next token, when that is not the end of the text. -/
theorem advance_next {kind : Kind} {f g : Unit → Parser α} (hnext : w.next.kind = kind)
    (hkind : kind ≠ .endOfText) (h : W.At .moved w.advance (f ()) (g ())) :
    W.At point w (Parser.advance >>= f) (Parser.advance >>= g) :=
  .advance (.inr (stands_of_next hnext hkind)) h

/-- A problem may be noted at the current token where nothing was parsed there yet. -/
theorem note {cause : SyntaxCause} {quoted : Token} {f g : Unit → Parser α} (hfresh : point.Fresh)
    (hcause : cause ≠ .tooDeep)
    (h : W.At point.after (w.note cause w.current quoted) (f ()) (g ())) :
    W.At point w ((modify (·.note cause w.current quoted) : Parser Unit) >>= f)
      ((modify (·.note cause w.current quoted) : Parser Unit) >>= g) :=
  W.note_current hfresh hcause h

/-- A move over a token that has to be there, or a problem without it. -/
theorem expect {kind : Kind} (hkind : kind ≠ .endOfText) {x y x' y' : Parser α}
    (hx : w.next.kind = kind → W.At .moved w.advance x x')
    (hy : ∀ w', W.At point.after w' y y') :
    W.At point w (Parser.expect kind >>= fun there => if there then x else y)
      (Parser.expect kind >>= fun there => if there then x' else y') := by
  unfold At
  rw [bind_apply, bind_apply, expect_apply]
  by_cases hnext : w.next.kind = kind
  · rw [if_pos hnext]
    exact W.advance (.inr (stands_of_next hnext hkind)) (hx hnext)
  · rw [if_neg hnext]
    exact W.note_next (unexpected_ne_tooDeep kind w.next) (hy _)

/-- What stands behind a token that has to be there is judged where it is there. -/
theorem past {kind : Kind} (hkind : kind ≠ .endOfText) {more more' : Parser Node}
    (h : w.next.kind = kind → W.At .moved w.advance more more') :
    W.At point w (Parser.past kind more) (Parser.past kind more') := by
  unfold Parser.past
  exact .expect hkind h fun _ => .pure _

end At

/-! ## Parameters and ends of statements -/

/-- Further parameters are walked by induction on the bound of their loop. -/
theorem moreParameters (found : Array Name) (n : Nat) :
    W.At .moved w (moreParameters found n) (Parser.moreParameters found n) := by
  induction n generalizing found w with
  | zero => exact .pure none
  | succ n ih =>
    unfold Parser.moreParameters
    refine .nextIs (fun hcomma => .advance_next hcomma (by decide) ?_) ?_
    · exact .expect (by decide) (fun _ => .current (ih _)) fun _ => .pure none
    · exact .expect (by decide) (fun _ => .pure _) fun _ => .pure none

/-- Parameters are a parenthesis at once, or a name and further parameters. -/
theorem parameters : W.At .moved w parameters Parser.parameters := by
  unfold Parser.parameters
  refine .nextIs (fun hclose => .advance_next hclose (by decide) (.pure _)) ?_
  refine .expect (by decide) (fun _ => ?_) fun _ => .pure none
  exact .current (.remaining (moreParameters _ _))

/-- A semicolon behind a statement may be missing at any point. -/
theorem terminator : W.At point w terminator Parser.terminator := by
  unfold Parser.terminator
  refine .nextIs (fun hsemicolon => ?_) (.pure ())
  exact W.advance (.inr (stands_of_next hsemicolon (by decide))) (W.pure .moved w.advance ())

/-! ## Rules over the phrases inside -/

/-- What the rules for the phrases inside have to satisfy. -/
structure Inside (W : Walk) (rules rules' : Phrase → Parser Node) : Prop where
  expression (above : Nat) (w : Window) :
    W.At .opening w (rules (.expression above)) (rules' (.expression above))
  phrase (phrase : Phrase) (w : Window) : W.Stands w →
    W.At .moved w (rules phrase) (rules' phrase)

section

variable {self self' : Phrase → Parser Node} (hself : W.Inside self self')

include hself

/-- An expression behind a move, and what follows it. -/
theorem expressionThen {above : Nat} {f g : Node → Parser α}
    (h : ∀ e w', W.At .behind w' (f e) (g e)) :
    W.At .moved w (self (.expression above) >>= f) (self' (.expression above) >>= g) :=
  .bind (hself.expression above w).moved h

/-- A phrase behind a move to a token that had to be there, and what follows it. -/
theorem phraseThen {kind : Kind} {phrase : Phrase} {f g : Node → Parser α}
    (hnext : w.next.kind = kind) (hkind : kind ≠ .endOfText)
    (h : ∀ n w', W.At .behind w' (f n) (g n)) :
    W.At .moved w.advance (self phrase >>= f) (self' phrase >>= g) :=
  .bind (hself.phrase phrase _ (stands_advance hnext hkind)) h

/-- The statements of a block are walked by induction on the bound of their loop, up to the closing
brace or the end of the text. -/
theorem blockStatements (opening : Token) (found : Array Node) (n : Nat) :
    W.At .moved w (blockStatements self opening found n)
      (Parser.blockStatements self' opening found n) := by
  induction n generalizing found w with
  | zero => exact .pure found
  | succ n ih =>
    unfold Parser.blockStatements
    refine .current (.ite (fun _ => .pure found) fun _ => .ite (fun hend => ?_) fun hend => ?_)
    · exact .note trivial (by simp) (.pure found)
    · refine .bind (hself.phrase .statement w (stands_of_current hend)) fun statement w₁ => ?_
      exact .advance (.inl trivial) (ih _)

/-- A block begins where its statements do, behind the brace. -/
theorem block : W.At .opening w (block self) (Parser.block self') := by
  unfold Parser.block
  refine .current (.advance (.inl trivial) (.remaining ?_))
  exact .bind (blockStatements hself _ _ _) fun statements w₁ => .looks fun span => .pure _

/-- An alternative is a conditional or a block, and may be missing. -/
theorem conditionalRest (first : Token) (condition consequence : Node) :
    W.At .behind w (conditionalRest self first condition consequence)
      (Parser.conditionalRest self' first condition consequence) := by
  unfold Parser.conditionalRest
  dsimp only
  refine .nextIs (fun helse => .advance_next helse (by decide) ?_) (.looks fun span => .pure _)
  refine .nextIs (fun hif => .advance_next hif (by decide) ?_) ?_
  · refine phraseThen hself hif (by decide) fun nested w₁ => ?_
    exact .ite (fun _ => .pure _) fun _ => .looks fun span => .pure _
  · refine .past (by decide) fun hbrace => phraseThen hself hbrace (by decide) fun other w₁ => ?_
    exact .looks fun span => .pure _

/-- A conditional moves only over tokens that are there. -/
theorem conditional : W.At .start w (conditional self) (Parser.conditional self') := by
  rw [conditional_eq, conditional_eq]
  refine .current (.past (by decide) fun _ => .advance (.inl trivial) ?_)
  refine expressionThen hself fun condition w₁ => ?_
  refine .past (by decide) fun _ => .past (by decide) fun hbrace => ?_
  exact phraseThen hself hbrace (by decide) fun consequence w₂ => conditionalRest hself _ _ _

/-- The body of a function is a block behind its parameters. -/
theorem function : W.At .start w (function self) (Parser.function self') := by
  unfold Parser.function
  refine .current (.past (by decide) fun _ => .bind parameters fun names w₁ => ?_)
  cases names with
  | none => exact .pure Node.missing
  | some names =>
    refine .past (by decide) fun hbrace => phraseThen hself hbrace (by decide) fun body w₂ => ?_
    exact .looks fun span => .pure _

/-- The operand of a sign is behind a move. -/
theorem signed (hw : W.Stands w) : W.At .start w (signed self) (Parser.signed self') := by
  unfold Parser.signed
  refine .current (.advance (.inr hw) (expressionThen hself fun operand w₁ => ?_))
  exact .ite (fun _ => .pure _) fun _ => .looks fun span => .pure _

/-- What is in parentheses is behind a move. -/
theorem grouped (hw : W.Stands w) : W.At .start w (grouped self) (Parser.grouped self') := by
  unfold Parser.grouped
  refine .advance (.inr hw) (expressionThen hself fun inner w₁ => ?_)
  exact .past (by decide) fun _ => .pure inner

/-- Further arguments are walked by induction on the bound of their loop. -/
theorem moreArguments (found : Array Node) (n : Nat) :
    W.At .behind w (moreArguments self found n) (Parser.moreArguments self' found n) := by
  induction n generalizing found w with
  | zero => exact .pure found
  | succ n ih =>
    unfold Parser.moreArguments
    refine .nextIs (fun _ => .advance (.inl trivial) (.advance (.inl trivial) ?_)) (.pure found)
    exact expressionThen hself fun argument w₁ => ih _

theorem arguments : W.At .opening w (arguments self) (Parser.arguments self') := by
  unfold Parser.arguments
  refine .nextIs (fun _ => .advance (.inl trivial) (.pure _)) (.advance (.inl trivial) ?_)
  refine expressionThen hself fun first w₁ => .remaining (.bind (moreArguments hself _ _) ?_)
  exact fun all w₂ => .expect (by decide) (fun _ => .pure _) fun _ => .pure none

/-- The arguments of a call begin at its parenthesis. -/
theorem call (callee : Node) : W.At .opening w (call self callee) (Parser.call self' callee) := by
  unfold Parser.call
  refine .bind (arguments hself) fun all w₁ => ?_
  cases all with
  | none => exact .pure Node.missing
  | some all => exact .looks fun span => .pure _

/-- The right operand of an operator is behind a move. -/
theorem infixed (left : Node) : W.At .moved w (infixed self left) (Parser.infixed self' left) := by
  unfold Parser.infixed
  refine .current (.advance (.inl trivial) (expressionThen hself fun right w₁ => ?_))
  exact .ite (fun _ => .pure _) fun _ => .looks fun span => .pure _

/-- An operand begins as its first token says, or a problem is noted at it. -/
theorem operand : W.At .start w (operand self) (Parser.operand self') := by
  have hstands : ∀ kind : Kind, w.current.kind = kind → kind ≠ .endOfText → W.Stands w :=
    fun kind hk hkind => stands_of_current (hk ▸ hkind)
  unfold Parser.operand
  refine .current ?_
  split
  · exact .pure _
  · next hk =>
    unfold integerLiteral
    exact .ite (fun hlong => W.refuse hk hlong) fun _ => .pure _
  · next hk => exact signed hself (hstands _ hk (by decide))
  · next hk => exact signed hself (hstands _ hk (by decide))
  · next hk => exact grouped hself (hstands _ hk (by decide))
  · exact conditional hself
  · exact function hself
  · exact .note trivial (by simp) (.pure _)
  · exact .note trivial (by simp) (.pure _)

/-- Operators are taken only behind a move, where there is room for one. -/
theorem operators {above : Nat} {left : Node} {n : Nat}
    (hmove : n ≠ 0 → point.Free ∨ W.Stands w) :
    W.At point w (operators self above left n) (Parser.operators self' above left n) := by
  induction n generalizing point left w with
  | zero => exact .pure left
  | succ n ih =>
    unfold Parser.operators
    refine .next (.ite (fun _ => .pure left) fun _ => .advance (hmove (Nat.succ_ne_zero n)) ?_)
    have hmore : ∀ left w', W.At .behind w' (operators self above left n)
        (Parser.operators self' above left n) := fun left w' => ih fun _ => .inl trivial
    dsimp only
    refine .ite (fun hparen => .bind ?_ hmore) fun _ => .bind (infixed hself left) hmore
    exact hself.phrase (.call left) _ (stands_advance hparen (by decide))

/-- An expression is an operand and the operators behind it. -/
theorem expression (above : Nat) :
    W.At .start w (expression self above) (Parser.expression self' above) := by
  unfold Parser.expression
  refine .bind (operand hself) fun left w₁ => .remaining (operators hself fun hne => ?_)
  exact .inr (stands_of_ahead (List.ne_nil_of_length_pos (Nat.pos_of_ne_zero hne)))

/-! ## Statements -/

/-- A declaration is walked whatever walk ends it. -/
theorem declaration {finish finish' : Parser Unit} (hfinish : ∀ w, W.At .behind w finish finish') :
    W.At .start w (declaration self finish) (Parser.declaration self' finish') := by
  unfold Parser.declaration
  dsimp only
  refine .current (.past (by decide) fun _ => .current (.past (by decide) fun _ => ?_))
  refine .advance (.inl trivial) (expressionThen hself fun value w₁ => ?_)
  exact .bind (hfinish w₁) fun _ w₂ => .looks fun span => .pure _

/-- An assignment is walked whatever walk ends it. -/
theorem assignment {finish finish' : Parser Unit} (hfinish : ∀ w, W.At .behind w finish finish') :
    W.At .start w (assignment self finish) (Parser.assignment self' finish') := by
  unfold Parser.assignment
  refine .current (.past (by decide) fun _ => .advance (.inl trivial) ?_)
  refine expressionThen hself fun value w₁ => ?_
  exact .bind (hfinish w₁) fun _ w₂ => .looks fun span => .pure _

/-- An expression and the semicolon behind it. -/
theorem expressionStatement :
    W.At .opening w (expressionStatement self) (Parser.expressionStatement self') := by
  unfold Parser.expressionStatement
  refine .current (.bind (hself.expression lowest w) fun value w₁ => ?_)
  refine .ite (fun _ => .pure _) fun _ => .bind terminator fun _ w₂ => ?_
  exact .looks fun span => .pure _

theorem whileLoop : W.At .start w (whileLoop self) (Parser.whileLoop self') := by
  unfold Parser.whileLoop
  refine .current (.past (by decide) fun _ => .advance (.inl trivial) ?_)
  refine expressionThen hself fun condition w₁ => ?_
  refine .past (by decide) fun _ => .past (by decide) fun hbrace => ?_
  exact phraseThen hself hbrace (by decide) fun body w₂ => .looks fun span => .pure _

/-- A clause of a counting loop is a declaration, an assignment or a problem. -/
theorem clause (name : String) : W.At .moved w (clause self name) (Parser.clause self' name) := by
  have hfinish : ∀ w, W.At .behind w (Pure.pure () : Parser Unit) (Pure.pure ()) :=
    fun _ => .pure ()
  unfold Parser.clause
  refine .current (.ite (fun _ => (declaration hself hfinish).opening.moved) fun _ => .next ?_)
  refine .ite (fun _ => (assignment hself hfinish).opening.moved) fun _ => ?_
  exact .note trivial (by simp) (.pure _)

/-- A counting loop whose last clause is missing has no body. -/
theorem forBody (first : Token) (init condition post : Node) :
    W.At .behind w (forBody self first init condition post)
      (Parser.forBody self' first init condition post) := by
  unfold Parser.forBody
  refine .ite (fun _ => .pure _) fun _ => .past (by decide) fun _ => ?_
  refine .past (by decide) fun hbrace => ?_
  exact phraseThen hself hbrace (by decide) fun body w₁ => .looks fun span => .pure _

/-- A counting loop whose first clause is missing goes no further. -/
theorem forRest (first : Token) (init : Node) :
    W.At .behind w (forRest self first init) (Parser.forRest self' first init) := by
  unfold Parser.forRest
  refine .ite (fun _ => .pure _) fun _ => .past (by decide) fun _ => .advance (.inl trivial) ?_
  refine expressionThen hself fun condition w₁ => .past (by decide) fun _ => ?_
  exact .advance (.inl trivial) (.bind (clause hself _) fun post w₂ => forBody hself _ _ _ _)

theorem forLoop : W.At .start w (forLoop self) (Parser.forLoop self') := by
  rw [forLoop_eq, forLoop_eq]
  refine .current (.past (by decide) fun _ => .advance (.inl trivial) ?_)
  exact .bind (clause hself _) fun init w₁ => forRest hself _ _

/-- **A statement begins as its first two tokens say.** -/
theorem statement : W.At .opening w (statement self) (Parser.statement self') := by
  have hfinish : ∀ w, W.At .behind w Parser.terminator Parser.terminator := fun _ => terminator
  unfold Parser.statement
  refine .current ?_
  split
  · exact (declaration hself hfinish).opening
  · exact (whileLoop hself).opening
  · exact (forLoop hself).opening
  · exact .nextIs (fun _ => (assignment hself hfinish).opening) (expressionStatement hself)
  · exact expressionStatement hself

end

/-! ## All phrases -/

/-- Where any phrase may begin anywhere, rules that are judged at the opening of a phrase serve
inside others. -/
theorem inside {rules rules' : Phrase → Parser Node}
    (h : ∀ phrase w, W.At .opening w (rules phrase) (rules' phrase)) : W.Inside rules rules' :=
  ⟨fun above w => h (.expression above) w, fun phrase w _ => (h phrase w).moved⟩

/-- **What is judged of the moves is judged of every rule**, however deep it nests: of a parse with
so many levels, beside one with more of them. What is left to be judged is a parse that is given
up at its start for want of levels. -/
theorem phrase (more : Nat) (hstands : ∀ w, W.Stands w)
    (hshort : ∀ depth phrase w, parsePhrase depth phrase w = .error .tooDeep w →
      W.At .opening w (parsePhrase depth phrase) (parsePhrase (depth + more) phrase)) :
    ∀ depth phrase w, W.At .opening w (parsePhrase depth phrase) (parsePhrase (depth + more) phrase)
  | 0, phrase, w => hshort 0 phrase w rfl
  | 1, .statement, w => hshort 1 .statement w rfl
  | 1, .expression above, w => hshort 1 (.expression above) w rfl
  | depth + 1, .block, w => by
    have hself := inside (phrase more hstands hshort depth)
    rw [Nat.add_right_comm]
    unfold parsePhrase
    exact block hself
  | depth + 1, .conditional, w => by
    have hself := inside (phrase more hstands hshort depth)
    rw [Nat.add_right_comm]
    unfold parsePhrase
    exact (conditional hself).opening
  | depth + 1, .call callee, w => by
    have hself := inside (phrase more hstands hshort depth)
    rw [Nat.add_right_comm]
    unfold parsePhrase
    exact call hself callee
  | depth + 2, .statement, w => by
    have hself := inside (phrase more hstands hshort depth)
    rw [Nat.add_right_comm]
    unfold parsePhrase
    exact statement hself
  | depth + 2, .expression above, w => by
    have hself := inside (phrase more hstands hshort depth)
    rw [Nat.add_right_comm]
    unfold parsePhrase
    exact (expression hself above).opening

end Walk

end Parser

end Ember

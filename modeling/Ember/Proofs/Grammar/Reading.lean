import Ember.Parse
import Ember.Proofs.Parse.Clean

/-!
# What the rules read

`Reads r ts k` says that the tokens `ts`, in front of a token of kind `k`, are read
as `r`. It states the grammar as the rules apply it: operators are taken by their
strength and as long as there are any, a semicolon and an `else` are taken whenever
they are there. The token behind the stretch matters for nothing else.

The relation leaves all spans free. Clean parses read exactly what it says
(`Sound`, `Complete`), so facts about them are proved by induction on `Reads`, where
no window, no bound on the nesting and no bound on a loop is left.
-/

namespace Ember

/-- The names behind the first parameter, up to the closing parenthesis. -/
inductive MoreParameters : List Token → List Name → Prop
  | close {c : Token} : c.kind = .rightParen → MoreParameters [c] []
  | next {c t : Token} {ts : List Token} {names : List Name} {span : Option Span} :
      c.kind = .comma → t.kind = .identifier → MoreParameters ts names →
      MoreParameters (c :: t :: ts) (⟨t.text, span⟩ :: names)

/-- The names of parameters, up to the closing parenthesis. -/
inductive Parameters : List Token → List Name → Prop
  | none {c : Token} : c.kind = .rightParen → Parameters [c] []
  | some {t : Token} {ts : List Token} {names : List Name} {span : Option Span} :
      t.kind = .identifier → MoreParameters ts names →
      Parameters (t :: ts) (⟨t.text, span⟩ :: names)

/-- The semicolon behind a statement, in front of a token of kind `k`: it may be left
out, and where there is one it is taken. -/
inductive Terminator : List Token → Kind → Prop
  | semicolon {t : Token} {k : Kind} : t.kind = .semicolon → Terminator [t] k
  | omitted {k : Kind} : k ≠ .semicolon → Terminator [] k

/-- What a stretch of tokens is read as. -/
inductive Reading where
  /-- What an expression starts with. -/
  | operand (n : Node)
  /-- An expression of operators that bind more strongly than `above`. -/
  | expression (above : Nat) (n : Node)
  /-- Operators and calls behind an operand: `left` is the tree before them and `n`
  the tree with them. -/
  | operators (above : Nat) (left n : Node)
  /-- The arguments of a call and the closing parenthesis. -/
  | arguments (ns : List Node)
  /-- The arguments behind commas and the closing parenthesis. -/
  | moreArguments (ns : List Node)
  | conditional (n : Node)
  | block (n : Node)
  | statements (ns : List Node)
  /-- A declaration or an assignment, without a semicolon. -/
  | binding (n : Node)
  | statement (n : Node)

/-- The tokens are read so, in front of a token of the given kind. -/
inductive Reads : Reading → List Token → Kind → Prop
  | identifier {t : Token} {k : Kind} {span : Option Span} :
      t.kind = .identifier → Reads (.operand (.identifier span t.text)) [t] k
  | integer {t : Token} {k : Kind} {span : Option Span} :
      t.kind = .integer → t.text.length ≤ maxDigits →
      Reads (.operand (.integer span (Text.digitsValue t.text.toList))) [t] k
  | signed {t : Token} {ts : List Token} {k : Kind} {span : Option Span} {n : Node} :
      t.kind = .bang ∨ t.kind = .minus → Reads (.expression signStrength n) ts k →
      Reads (.operand (.unary span t.text n)) (t :: ts) k
  | grouped {o c : Token} {ts : List Token} {k : Kind} {n : Node} :
      o.kind = .leftParen → Reads (.expression lowest n) ts .rightParen → c.kind = .rightParen →
      Reads (.operand n) (o :: (ts ++ [c])) k
  | choice {ts : List Token} {k : Kind} {n : Node} :
      Reads (.conditional n) ts k → Reads (.operand n) ts k
  | function {f o : Token} {ps ts : List Token} {k : Kind} {span : Option Span}
      {names : List Name} {body : Node} :
      f.kind = .functionWord → o.kind = .leftParen → Parameters ps names →
      Reads (.block body) ts k →
      Reads (.operand (.function span names body)) (f :: o :: (ps ++ ts)) k
  | expression {ts us : List Token} {k : Kind} {above : Nat} {left n : Node} :
      Reads (.operand left) ts (firstKind us k) → Reads (.operators above left n) us k →
      Reads (.expression above n) (ts ++ us) k
  | stop {k : Kind} {above : Nat} {n : Node} :
      k.strength ≤ above → Reads (.operators above n n) [] k
  | infixed {op : Token} {ts us : List Token} {k : Kind} {above : Nat} {span : Option Span}
      {left right n : Node} :
      above < op.kind.strength → op.kind ≠ .leftParen →
      Reads (.expression op.kind.strength right) ts (firstKind us k) →
      Reads (.operators above (.binary span left op.text right) n) us k →
      Reads (.operators above left n) (op :: (ts ++ us)) k
  | call {o : Token} {ts us : List Token} {k : Kind} {above : Nat} {span : Option Span}
      {left n : Node} {args : List Node} :
      above < o.kind.strength → o.kind = .leftParen →
      Reads (.arguments args) ts (firstKind us k) →
      Reads (.operators above (.call span left args) n) us k →
      Reads (.operators above left n) (o :: (ts ++ us)) k
  | noArguments {c : Token} {k : Kind} : c.kind = .rightParen → Reads (.arguments []) [c] k
  | arguments {ts us : List Token} {k : Kind} {n : Node} {ns : List Node} :
      Reads (.expression lowest n) ts (firstKind us k) → Reads (.moreArguments ns) us k →
      Reads (.arguments (n :: ns)) (ts ++ us) k
  | lastArgument {c : Token} {k : Kind} :
      c.kind = .rightParen → Reads (.moreArguments []) [c] k
  | nextArgument {c : Token} {ts us : List Token} {k : Kind} {n : Node} {ns : List Node} :
      c.kind = .comma → Reads (.expression lowest n) ts (firstKind us k) →
      Reads (.moreArguments ns) us k → Reads (.moreArguments (n :: ns)) (c :: (ts ++ us)) k
  | ifOnly {i o c : Token} {ts us : List Token} {k : Kind} {span : Option Span}
      {condition consequence : Node} :
      i.kind = .ifWord → o.kind = .leftParen → Reads (.expression lowest condition) ts .rightParen →
      c.kind = .rightParen → Reads (.block consequence) us k → k ≠ .elseWord →
      Reads (.conditional (.conditional span condition consequence .missing))
        (i :: o :: (ts ++ c :: us)) k
  | ifElse {i o c e : Token} {ts us vs : List Token} {k : Kind} {span : Option Span}
      {condition consequence alternative : Node} :
      i.kind = .ifWord → o.kind = .leftParen → Reads (.expression lowest condition) ts .rightParen →
      c.kind = .rightParen → Reads (.block consequence) us .elseWord → e.kind = .elseWord →
      Reads (.block alternative) vs k →
      Reads (.conditional (.conditional span condition consequence alternative))
        (i :: o :: (ts ++ c :: (us ++ e :: vs))) k
  | elseIf {i o c e : Token} {ts us vs : List Token} {k : Kind} {span span₁ span₂ : Option Span}
      {condition consequence nested : Node} :
      i.kind = .ifWord → o.kind = .leftParen → Reads (.expression lowest condition) ts .rightParen →
      c.kind = .rightParen → Reads (.block consequence) us .elseWord → e.kind = .elseWord →
      Reads (.conditional nested) vs k →
      Reads (.conditional
          (.conditional span condition consequence (.block span₁ [.expression span₂ nested])))
        (i :: o :: (ts ++ c :: (us ++ e :: vs))) k
  | block {o c : Token} {ts : List Token} {k : Kind} {span : Option Span} {ns : List Node} :
      o.kind = .leftBrace → Reads (.statements ns) ts .rightBrace → c.kind = .rightBrace →
      Reads (.block (.block span ns)) (o :: (ts ++ [c])) k
  | noStatements {k : Kind} : Reads (.statements []) [] k
  | statements {ts us : List Token} {k : Kind} {n : Node} {ns : List Node} :
      Reads (.statement n) ts (firstKind us k) → Reads (.statements ns) us k →
      Reads (.statements (n :: ns)) (ts ++ us) k
  | declaration {l t a : Token} {ts : List Token} {k : Kind} {span span₁ : Option Span}
      {value : Node} :
      l.kind = .letWord → t.kind = .identifier → a.kind = .assign →
      Reads (.expression lowest value) ts k →
      Reads (.binding (.declaration span ⟨t.text, span₁⟩ value)) (l :: t :: a :: ts) k
  | assignment {t a : Token} {ts : List Token} {k : Kind} {span span₁ : Option Span}
      {value : Node} :
      t.kind = .identifier → a.kind = .assign → Reads (.expression lowest value) ts k →
      Reads (.binding (.assignment span ⟨t.text, span₁⟩ value)) (t :: a :: ts) k
  | binding {ts us : List Token} {k : Kind} {n : Node} :
      Reads (.binding n) ts (firstKind us k) → Terminator us k →
      Reads (.statement n) (ts ++ us) k
  | expressionStatement {ts us : List Token} {k : Kind} {span : Option Span} {n : Node} :
      Reads (.expression lowest n) ts (firstKind us k) → Terminator us k →
      (firstKind ts k = .identifier → firstKind (ts ++ us).tail k ≠ .assign) →
      Reads (.statement (.expression span n)) (ts ++ us) k
  | whileLoop {w o c : Token} {ts us : List Token} {k : Kind} {span : Option Span}
      {condition body : Node} :
      w.kind = .whileWord → o.kind = .leftParen →
      Reads (.expression lowest condition) ts .rightParen → c.kind = .rightParen →
      Reads (.block body) us k →
      Reads (.statement (.whileLoop span condition body)) (w :: o :: (ts ++ c :: us)) k
  | forLoop {f o s₁ s₂ c : Token} {ts us vs xs : List Token} {k : Kind} {span : Option Span}
      {init condition post body : Node} :
      f.kind = .forWord → o.kind = .leftParen → Reads (.binding init) ts .semicolon →
      s₁.kind = .semicolon → Reads (.expression lowest condition) us .semicolon →
      s₂.kind = .semicolon → Reads (.binding post) vs .rightParen → c.kind = .rightParen →
      Reads (.block body) xs k →
      Reads (.statement (.forLoop span init condition post body))
        (f :: o :: (ts ++ s₁ :: (us ++ s₂ :: (vs ++ c :: xs)))) k

/-- No integer literal among the tokens is too long to be read. -/
def Readable (ts : List Token) : Prop :=
  ∀ t ∈ ts, t.kind = .integer → t.text.length ≤ maxDigits

instance (ts : List Token) : Decidable (Readable ts) :=
  inferInstanceAs (Decidable (∀ t ∈ ts, t.kind = .integer → t.text.length ≤ maxDigits))

@[simp]
theorem readable_nil : Readable [] := nofun

@[simp]
theorem readable_append {ts us : List Token} : Readable (ts ++ us) ↔ Readable ts ∧ Readable us := by
  simp [Readable, or_imp, forall_and]

@[simp]
theorem readable_cons {t : Token} {ts : List Token} :
    Readable (t :: ts) ↔ (t.kind = .integer → t.text.length ≤ maxDigits) ∧ Readable ts := by
  simp [Readable]

end Ember

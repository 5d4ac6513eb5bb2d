import Ember.Parse

/-!
# How programs are written

`Writes style part ts` says that the tokens `ts` write a part of a program: read from
left to right, its tree is the tokens. What a tree leaves open, the tokens may have or
not: parentheses around any expression, a semicolon behind a statement, the braces
behind an `else` that another `if` follows, zeros in front of a number.

There are two styles. The free one puts parentheses and semicolons anywhere or
nowhere; which tree its tokens are parsed to is not said. The careful one puts
parentheses at least where precedence and associativity ask for them, and a semicolon
behind every statement of a block.
-/

namespace Ember

/-- The operators that stand between two operands. -/
def Kind.isInfix : Kind → Bool
  | .plus | .minus | .star | .slash | .less | .greater | .lessEqual | .greaterEqual | .equal
  | .notEqual => true
  | _ => false

/-- Names with commas between them, up to their spans. -/
inductive Names : List Name → List Token → Prop
  | none : Names [] []
  | last {t : Token} {span : Option Span} : t.kind = .identifier → Names [⟨t.text, span⟩] [t]
  | next {t c : Token} {ts : List Token} {span : Option Span} {name : Name} {names : List Name} :
      t.kind = .identifier → c.kind = .comma → Names (name :: names) ts →
      Names (⟨t.text, span⟩ :: name :: names) (t :: c :: ts)

/-- The precedence of the operators that bind least. -/
def loosest : Nat := lowest + 1

/-- The precedence of signs, above that of all operators between operands. -/
def signPrecedence : Nat := signStrength + 1

/-- The precedence of a callee, above that of signs. -/
def calleePrecedence : Nat := signPrecedence + 1

/-- How much of what a tree leaves open is free. -/
inductive Style where
  | free
  | careful
deriving DecidableEq, Repr

/-- The precedence that a place asks for. -/
def Style.least : Style → Nat → Nat
  | free, _ => loosest
  | careful, precedence => precedence

/-- What may stand at the end of a statement. -/
inductive Style.Ends : Style → List Token → Prop
  | semicolon {style : Style} {t : Token} : t.kind = .semicolon → style.Ends [t]
  | omitted : free.Ends []

/-- A part of a program with its tree, or its trees. -/
inductive Part where
  | statements (ns : List Node)
  | statement (n : Node)
  /-- A declaration or an assignment, without its semicolon. -/
  | clause (n : Node)
  | block (n : Node)
  /-- An expression whose operators have at least the precedence `least`, parentheses
  apart. -/
  | expression (least : Nat) (e : Node)
  | arguments (es : List Node)
  | conditional (e : Node)

/-- The tokens write the part: from left to right the tree is the tokens, up to grouping
parentheses, semicolons where the style leaves them free, the braces that a tree gives to
`else if`, and the leading zeros of integer literals. -/
inductive Writes (style : Style) : Part → List Token → Prop
  | identifier {t : Token} {least : Nat} {span : Option Span} :
      t.kind = .identifier → Writes style (.expression least (.identifier span t.text)) [t]
  | integer {t : Token} {least : Nat} {span : Option Span} :
      t.kind = .integer →
      Writes style (.expression least (.integer span (Text.digitsValue t.text.toList))) [t]
  | grouped {o c : Token} {ts : List Token} {least : Nat} {e : Node} :
      o.kind = .leftParen → Writes style (.expression loosest e) ts → c.kind = .rightParen →
      Writes style (.expression least e) (o :: (ts ++ [c]))
  | signed {t : Token} {ts : List Token} {least : Nat} {span : Option Span} {e : Node} :
      least ≤ signPrecedence → t.kind = .bang ∨ t.kind = .minus →
      Writes style (.expression (style.least signPrecedence) e) ts →
      Writes style (.expression least (.unary span t.text e)) (t :: ts)
  | infixed {op : Token} {ts us : List Token} {least : Nat} {span : Option Span}
      {left right : Node} :
      least ≤ op.kind.strength → op.kind.isInfix →
      Writes style (.expression (style.least op.kind.strength) left) ts →
      Writes style (.expression (style.least (op.kind.strength + 1)) right) us →
      Writes style (.expression least (.binary span left op.text right)) (ts ++ op :: us)
  | call {o c : Token} {ts us : List Token} {least : Nat} {span : Option Span} {callee : Node}
      {args : List Node} :
      Writes style (.expression (style.least calleePrecedence) callee) ts →
      o.kind = .leftParen → Writes style (.arguments args) us → c.kind = .rightParen →
      Writes style (.expression least (.call span callee args)) (ts ++ o :: (us ++ [c]))
  | function {f o c : Token} {ps ts : List Token} {least : Nat} {span : Option Span}
      {names : List Name} {body : Node} :
      f.kind = .functionWord → o.kind = .leftParen → Names names ps → c.kind = .rightParen →
      Writes style (.block body) ts →
      Writes style (.expression least (.function span names body)) (f :: o :: (ps ++ c :: ts))
  | choice {ts : List Token} {least : Nat} {e : Node} :
      Writes style (.conditional e) ts → Writes style (.expression least e) ts
  | noArguments : Writes style (.arguments []) []
  | lastArgument {ts : List Token} {e : Node} :
      Writes style (.expression loosest e) ts → Writes style (.arguments [e]) ts
  | nextArgument {c : Token} {ts us : List Token} {e : Node} {es : List Node} :
      Writes style (.expression loosest e) ts → c.kind = .comma →
      Writes style (.arguments es) us → us ≠ [] →
      Writes style (.arguments (e :: es)) (ts ++ c :: us)
  | ifOnly {i o c : Token} {ts us : List Token} {span : Option Span}
      {condition consequence : Node} :
      i.kind = .ifWord → o.kind = .leftParen →
      Writes style (.expression loosest condition) ts →
      c.kind = .rightParen → Writes style (.block consequence) us →
      Writes style (.conditional (.conditional span condition consequence .missing))
        (i :: o :: (ts ++ c :: us))
  | ifElse {i o c e : Token} {ts us vs : List Token} {span : Option Span}
      {condition consequence alternative : Node} :
      i.kind = .ifWord → o.kind = .leftParen →
      Writes style (.expression loosest condition) ts →
      c.kind = .rightParen → Writes style (.block consequence) us → e.kind = .elseWord →
      Writes style (.block alternative) vs →
      Writes style (.conditional (.conditional span condition consequence alternative))
        (i :: o :: (ts ++ c :: (us ++ e :: vs)))
  | elseIf {i o c e : Token} {ts us vs : List Token} {span span₁ span₂ : Option Span}
      {condition consequence nested : Node} :
      i.kind = .ifWord → o.kind = .leftParen →
      Writes style (.expression loosest condition) ts →
      c.kind = .rightParen → Writes style (.block consequence) us → e.kind = .elseWord →
      Writes style (.conditional nested) vs →
      Writes style (.conditional
          (.conditional span condition consequence (.block span₁ [.expression span₂ nested])))
        (i :: o :: (ts ++ c :: (us ++ e :: vs)))
  | block {o c : Token} {ts : List Token} {span : Option Span} {ns : List Node} :
      o.kind = .leftBrace → Writes style (.statements ns) ts → c.kind = .rightBrace →
      Writes style (.block (.block span ns)) (o :: (ts ++ [c]))
  | noStatements : Writes style (.statements []) []
  | statements {ts us : List Token} {n : Node} {ns : List Node} :
      Writes style (.statement n) ts → Writes style (.statements ns) us →
      Writes style (.statements (n :: ns)) (ts ++ us)
  | binding {ts us : List Token} {n : Node} :
      Writes style (.clause n) ts → style.Ends us → Writes style (.statement n) (ts ++ us)
  | expressionStatement {ts us : List Token} {span : Option Span} {e : Node} :
      Writes style (.expression loosest e) ts → style.Ends us →
      Writes style (.statement (.expression span e)) (ts ++ us)
  | whileLoop {w o c : Token} {ts us : List Token} {span : Option Span} {condition body : Node} :
      w.kind = .whileWord → o.kind = .leftParen →
      Writes style (.expression loosest condition) ts →
      c.kind = .rightParen → Writes style (.block body) us →
      Writes style (.statement (.whileLoop span condition body)) (w :: o :: (ts ++ c :: us))
  | forLoop {f o s₁ s₂ c : Token} {ts us vs xs : List Token} {span : Option Span}
      {init condition post body : Node} :
      f.kind = .forWord → o.kind = .leftParen → Writes style (.clause init) ts →
      s₁.kind = .semicolon →
      Writes style (.expression loosest condition) us → s₂.kind = .semicolon →
      Writes style (.clause post) vs → c.kind = .rightParen → Writes style (.block body) xs →
      Writes style (.statement (.forLoop span init condition post body))
        (f :: o :: (ts ++ s₁ :: (us ++ s₂ :: (vs ++ c :: xs))))
  | declaration {l t a : Token} {ts : List Token} {span span₁ : Option Span} {value : Node} :
      l.kind = .letWord → t.kind = .identifier → a.kind = .assign →
      Writes style (.expression loosest value) ts →
      Writes style (.clause (.declaration span ⟨t.text, span₁⟩ value)) (l :: t :: a :: ts)
  | assignment {t a : Token} {ts : List Token} {span span₁ : Option Span} {value : Node} :
      t.kind = .identifier → a.kind = .assign →
      Writes style (.expression loosest value) ts →
      Writes style (.clause (.assignment span ⟨t.text, span₁⟩ value)) (t :: a :: ts)

end Ember

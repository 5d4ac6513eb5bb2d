import Ember.Proofs.Grammar.Rendering
import Ember.Proofs.Node.Print
import Mathlib.Algebra.Group.Nat.Defs

/-!
# Printed trees are read

`Prints part ts` says that the tokens `ts` are those of the text that a part of a program
is printed as. All operators have their own parentheses, all statements but expressions
have their semicolon. An expression as a statement has none, so what follows it may be taken for
more of it: a statement that starts with a parenthesis becomes the arguments of a call. When no
list has such neighbours (`Parted`), what is printed is read as what it was
(`Prints.returns`).
-/

namespace Ember

open Text

/-! ## Numbers -/

/-- The value of digits is the usual one. -/
theorem digitsValue_eq (ds : List Char) : digitsValue ds = Nat.ofDigitChars 10 ds 0 :=
  Nat.ofDigitChars_eq_foldl.symm

theorem isDigit_eq (c : Char) : isDigit c = c.isDigit := by
  simp only [isDigit, Char.isDigit, GE.ge]
  rfl

/-- The text of a number. -/
theorem toList_toString (n : Nat) : (toString (n : Int)).toList = Nat.toDigits 10 n := by
  have h : toString (n : Int) = String.ofList (Nat.toDigits 10 n) := Nat.repr_eq_ofList_toDigits
  rw [h, String.toList_ofList]

/-- A numeral consists of digits. -/
theorem isDigit_of_mem_toDigits {n : Nat} {c : Char} (hc : c ∈ Nat.toDigits 10 n) :
    isDigit c = true := by
  rw [isDigit_eq]
  exact Nat.isDigit_of_mem_toDigits (by decide) (by decide) hc

/-- A numeral has the value of its number. -/
theorem digitsValue_toDigits (n : Nat) : digitsValue (Nat.toDigits 10 n) = n := by
  rw [digitsValue_eq, Nat.ofDigitChars_ten_toDigits]

/-- So many digits stay below that power of ten. -/
theorem digitsValue_lt {ds : List Char} (h : ∀ c ∈ ds, isDigit c = true) :
    digitsValue ds < 10 ^ ds.length := by
  rw [digitsValue_eq]
  induction ds with
  | nil => decide
  | cons c ds ih =>
    obtain ⟨hc, hds⟩ := List.forall_mem_cons.1 h
    have hlt : c.toNat - '0'.toNat ≤ 9 := by
      simp only [isDigit, Bool.and_eq_true, decide_eq_true_eq] at hc
      have hle : c.toNat ≤ 57 := hc.2
      have hzero : '0'.toNat = 48 := rfl
      omega
    have hrest := ih hds
    rw [Nat.ofDigitChars_cons, Nat.ofDigitChars_eq_ofDigitChars_zero, List.length_cons,
      Nat.pow_succ, Nat.mul_zero, Nat.zero_add]
    have hmul : 10 ^ ds.length * (c.toNat - '0'.toNat) ≤ 10 ^ ds.length * 9 :=
      Nat.mul_le_mul_left _ hlt
    omega

/-- A number is printed with no more digits than it was written with. -/
theorem length_toDigits_le {ds : List Char} (hne : ds ≠ []) (h : ∀ c ∈ ds, isDigit c = true) :
    (Nat.toDigits 10 (digitsValue ds)).length ≤ ds.length :=
  (Nat.length_toDigits_le_iff (by decide) (List.length_pos_iff.2 hne)).2 (digitsValue_lt h)

/-! ## The tokens of printed trees -/

/-- A name, which starts with no parenthesis. -/
structure Token.IsName (t : Token) : Prop where
  kind : t.kind = .identifier
  text : ∃ c cs, t.text.toList = c :: cs ∧ c ≠ '('

/-- The tokens are those of the printed part. -/
inductive Prints : Part → List Token → Prop
  | identifier {t : Token} {least : Nat} {span : Option Span} :
      t.IsName → Prints (.expression least (.identifier span t.text)) [t]
  | integer {t : Token} {least value : Nat} {span : Option Span} :
      t.kind = .integer → t.text.length ≤ maxDigits → digitsValue t.text.toList = value →
      Prints (.expression least (.integer span value)) [t]
  | unary {o t c : Token} {ts : List Token} {least : Nat} {span : Option Span} {e : Node} :
      o.kind = .leftParen → t.kind = .bang ∨ t.kind = .minus →
      Prints (.expression signPrecedence e) ts → c.kind = .rightParen →
      Prints (.expression least (.unary span t.text e)) (o :: t :: (ts ++ [c]))
  | binary {o op c : Token} {ts us : List Token} {least : Nat} {span : Option Span}
      {left right : Node} :
      o.kind = .leftParen → Prints (.expression op.kind.strength left) ts → op.kind.isInfix →
      Prints (.expression (op.kind.strength + 1) right) us → c.kind = .rightParen →
      Prints (.expression least (.binary span left op.text right)) (o :: (ts ++ op :: (us ++ [c])))
  | call {o c : Token} {ts us : List Token} {least : Nat} {span : Option Span} {callee : Node}
      {args : List Node} :
      Prints (.expression calleePrecedence callee) ts → o.kind = .leftParen →
      Prints (.arguments args) us → c.kind = .rightParen →
      Prints (.expression least (.call span callee args)) (ts ++ o :: (us ++ [c]))
  | function {f o c : Token} {ps ts : List Token} {least : Nat} {span : Option Span}
      {names : List Name} {body : Node} :
      f.kind = .functionWord → o.kind = .leftParen → Names names ps → c.kind = .rightParen →
      Prints (.block body) ts →
      Prints (.expression least (.function span names body)) (f :: o :: (ps ++ c :: ts))
  | ifOnly {i o c : Token} {ts us : List Token} {least : Nat} {span : Option Span}
      {condition consequence : Node} :
      i.kind = .ifWord → o.kind = .leftParen → Prints (.expression loosest condition) ts →
      c.kind = .rightParen → Prints (.block consequence) us →
      Prints (.expression least (.conditional span condition consequence .missing))
        (i :: o :: (ts ++ c :: us))
  | ifElse {i o c e : Token} {ts us vs : List Token} {least : Nat} {span : Option Span}
      {condition consequence alternative : Node} :
      i.kind = .ifWord → o.kind = .leftParen → Prints (.expression loosest condition) ts →
      c.kind = .rightParen → Prints (.block consequence) us → e.kind = .elseWord →
      Prints (.block alternative) vs →
      Prints (.expression least (.conditional span condition consequence alternative))
        (i :: o :: (ts ++ c :: (us ++ e :: vs)))
  | noArguments : Prints (.arguments []) []
  | lastArgument {ts : List Token} {e : Node} :
      Prints (.expression loosest e) ts → Prints (.arguments [e]) ts
  | nextArgument {c : Token} {ts us : List Token} {e e' : Node} {es : List Node} :
      Prints (.expression loosest e) ts → c.kind = .comma → Prints (.arguments (e' :: es)) us →
      Prints (.arguments (e :: e' :: es)) (ts ++ c :: us)
  | block {o c : Token} {ts : List Token} {span : Option Span} {ns : List Node} :
      o.kind = .leftBrace → Prints (.statements ns) ts → c.kind = .rightBrace →
      Prints (.block (.block span ns)) (o :: (ts ++ [c]))
  | noStatements : Prints (.statements []) []
  | statements {ts us : List Token} {n : Node} {ns : List Node} :
      Prints (.statement n) ts → Prints (.statements ns) us →
      Prints (.statements (n :: ns)) (ts ++ us)
  | binding {t : Token} {ts : List Token} {n : Node} :
      Prints (.clause n) ts → t.kind = .semicolon → Prints (.statement n) (ts ++ [t])
  | expressionStatement {ts : List Token} {span : Option Span} {e : Node} :
      Prints (.expression loosest e) ts → Prints (.statement (.expression span e)) ts
  | whileLoop {w o c : Token} {ts us : List Token} {span : Option Span} {condition body : Node} :
      w.kind = .whileWord → o.kind = .leftParen → Prints (.expression loosest condition) ts →
      c.kind = .rightParen → Prints (.block body) us →
      Prints (.statement (.whileLoop span condition body)) (w :: o :: (ts ++ c :: us))
  | forLoop {f o s₁ s₂ c : Token} {ts us vs xs : List Token} {span : Option Span}
      {init condition post body : Node} :
      f.kind = .forWord → o.kind = .leftParen → Prints (.clause init) ts → s₁.kind = .semicolon →
      Prints (.expression loosest condition) us → s₂.kind = .semicolon →
      Prints (.clause post) vs → c.kind = .rightParen → Prints (.block body) xs →
      Prints (.statement (.forLoop span init condition post body))
        (f :: o :: (ts ++ s₁ :: (us ++ s₂ :: (vs ++ c :: xs))))
  | declaration {l t a : Token} {ts : List Token} {span span₁ : Option Span} {value : Node} :
      l.kind = .letWord → t.kind = .identifier → a.kind = .assign →
      Prints (.expression loosest value) ts →
      Prints (.clause (.declaration span ⟨t.text, span₁⟩ value)) (l :: t :: a :: ts)
  | assignment {t a : Token} {ts : List Token} {span span₁ : Option Span} {value : Node} :
      t.IsName → a.kind = .assign → Prints (.expression loosest value) ts →
      Prints (.clause (.assignment span ⟨t.text, span₁⟩ value)) (t :: a :: ts)

/-! ## Neighbours -/

namespace Node

mutual

/-- All lists of statements in a tree. -/
def lists : Node → List (List Node)
  | missing | identifier .. | integer .. => []
  | unary _ _ e => e.lists
  | binary _ left _ right => left.lists ++ right.lists
  | conditional _ condition consequence alternative =>
    condition.lists ++ consequence.lists ++ alternative.lists
  | function _ _ body => body.lists
  | call _ callee arguments => callee.lists ++ listsAll arguments
  | declaration _ _ value | assignment _ _ value => value.lists
  | expression _ e => e.lists
  | block _ statements | program _ statements => statements :: listsAll statements
  | whileLoop _ condition body => condition.lists ++ body.lists
  | forLoop _ init condition post body => init.lists ++ condition.lists ++ post.lists ++ body.lists

/-- All lists of statements in the trees of a list. -/
def listsAll : List Node → List (List Node)
  | [] => []
  | n :: ns => n.lists ++ listsAll ns

end

end Node

/-- No expression of the list stands in front of a statement that is printed with a
parenthesis in front. -/
def Parted (ns : List Node) : Prop :=
  ∀ pre span e n post, ns = pre ++ .expression span e :: n :: post → n.print.toList.head? ≠ some '('

theorem parted_nil : Parted [] := by
  intro pre span e n post h
  simp at h

/-- Statements are parted if the first one is from the next one, and the others are. -/
theorem parted_cons {n : Node} {ns : List Node} :
    Parted (n :: ns) ↔
      (∀ span e, n = .expression span e → ∀ m rest, ns = m :: rest →
        m.print.toList.head? ≠ some '(') ∧ Parted ns := by
  constructor
  · intro h
    refine ⟨fun span e hn m rest hns => h [] span e m rest (by rw [hn, hns]; rfl), ?_⟩
    intro pre span e m post hns
    exact h (n :: pre) span e m post (by rw [hns]; rfl)
  · rintro ⟨hhead, htail⟩ pre span e m post h
    cases pre with
    | nil =>
      obtain ⟨hn, hns⟩ := List.cons.inj h
      exact hhead span e hn m post hns
    | cons x pre =>
      obtain ⟨-, hns⟩ := List.cons.inj h
      exact htail pre span e m post hns

/-- All lists of statements in a part. -/
def Part.lists : Part → List (List Node)
  | .statements ns => ns :: Node.listsAll ns
  | .arguments es => Node.listsAll es
  | .statement n | .clause n | .block n | .expression _ n | .conditional n => n.lists

/-- No list of statements in the part has neighbours that are printed as one. -/
def Part.Separate (part : Part) : Prop :=
  ∀ ns ∈ part.lists, Parted ns

/-! ## First tokens -/

/-- The kinds of token that a printed statement starts with, or that stand behind the last
one. -/
def Kind.opensStatement : Kind → Bool
  | .identifier | .integer | .leftParen | .ifWord | .functionWord | .letWord | .whileWord
  | .forWord | .rightBrace | .endOfText => true
  | _ => false

/-- The first token and the first character of a printed tree. -/
structure Node.Begins (n : Node) (t : Token) : Prop where
  opens : t.kind.opensStatement
  paren : t.kind = .leftParen ↔ n.print.toList.head? = some '('
  char : n.print.toList ≠ []

/-- How a printed part begins. -/
def Part.Begins (ts : List Token) : Part → Prop
  | .expression _ n | .statement n | .clause n => ∃ t us, ts = t :: us ∧ n.Begins t
  | _ => True

/-- Nothing is missing at the top of a part. -/
def Part.Present : Part → Prop
  | .expression _ n | .statement n | .clause n | .block n | .conditional n => n.isMissing = false
  | .statements ns | .arguments ns => ∀ n ∈ ns, n.isMissing = false

/-- What is printed as tokens is there. -/
theorem Prints.present {part : Part} {ts : List Token} (h : Prints part ts) : part.Present := by
  induction h with
  | noArguments | noStatements => exact fun n hn => by cases hn
  | lastArgument _ ih => exact List.forall_mem_singleton.2 ih
  | nextArgument _ _ _ ih₁ ih₂ => exact List.forall_mem_cons.2 ⟨ih₁, ih₂⟩
  | statements _ _ ih₁ ih₂ => exact List.forall_mem_cons.2 ⟨ih₁, ih₂⟩
  | binding _ _ ih => exact ih
  | _ => rfl

/-- A text begins like its first token. -/
theorem Node.begins_of_cons {n : Node} {t : Token} {c : Char} {cs : List Char}
    (h : n.print.toList = c :: cs) (ho : t.kind.opensStatement)
    (hp : t.kind = .leftParen ↔ c = '(') :
    n.Begins t where
  opens := ho
  paren := by rw [h, List.head?_cons, Option.some_inj, hp]
  char := by rw [h]; exact List.cons_ne_nil _ _

/-- The text of a tree begins with a parenthesis exactly if its tokens do. -/
theorem Prints.begins {part : Part} {ts : List Token} (h : Prints part ts) : part.Begins ts := by
  induction h with
  | @identifier t least span ht =>
    obtain ⟨c, cs, htext, hc⟩ := ht.text
    exact ⟨t, [], rfl, Node.begins_of_cons htext (by rw [ht.kind]; rfl) (by simp [ht.kind, hc])⟩
  | @integer t least value span ht _ _ =>
    obtain ⟨c, cs, hcs⟩ := List.exists_cons_of_ne_nil (Nat.toDigits_ne_nil (n := value) (b := 10))
    have hdigit : isDigit c = true := isDigit_of_mem_toDigits (hcs ▸ List.mem_cons_self ..)
    have hc : c ≠ '(' := by
      rintro rfl
      exact absurd hdigit (by decide)
    have hprint : (Node.integer span value).print.toList = c :: cs := by
      rw [Node.print_integer, toList_toString, hcs]
    exact ⟨t, [], rfl, Node.begins_of_cons hprint (by rw [ht]; rfl) (by simp [ht, hc])⟩
  | @unary o t c ts least span e ho _ _ _ _ =>
    exact ⟨o, _, rfl,
      Node.begins_of_cons (Node.toList_print_unary ..) (by rw [ho]; rfl) (by simp [ho])⟩
  | @binary o op c ts us least span left right ho _ _ _ _ _ _ =>
    exact ⟨o, _, rfl,
      Node.begins_of_cons (Node.toList_print_binary ..) (by rw [ho]; rfl) (by simp [ho])⟩
  | @call o c ts us least span callee args _ _ hargs _ ih _ =>
    obtain ⟨t, us', rfl, hbegins⟩ := ih
    obtain ⟨d, ds, hd⟩ := List.exists_cons_of_ne_nil hbegins.char
    have hparen := hbegins.paren
    rw [hd, List.head?_cons, Option.some_inj] at hparen
    have hprint : (Node.call span callee args).print.toList =
        d :: (ds ++ '(' :: (printedList [',', ' '] args ++ [')'])) := by
      rw [Node.toList_print_call callee hargs.present, hd, List.cons_append]
    exact ⟨t, _, rfl, Node.begins_of_cons hprint hbegins.opens hparen⟩
  | function hf _ _ _ hb _ =>
    exact ⟨_, _, rfl, Node.begins_of_cons (c := 'f')
      (Node.toList_print_function _ hb.present) (by rw [hf]; rfl)
      (by simp [hf])⟩
  | ifOnly hi _ _ _ hb _ _ =>
    exact ⟨_, _, rfl, Node.begins_of_cons (c := 'i')
      (Node.toList_print_ifOnly _ hb.present) (by rw [hi]; rfl)
      (by simp [hi])⟩
  | ifElse hi _ _ _ hb _ hb' _ _ _ =>
    exact ⟨_, _, rfl, Node.begins_of_cons (c := 'i')
      (Node.toList_print_ifElse _ hb.present hb'.present)
      (by rw [hi]; rfl) (by simp [hi])⟩
  | noArguments | lastArgument | nextArgument | block | noStatements | statements => trivial
  | binding _ _ ih =>
    obtain ⟨t, us, rfl, hbegins⟩ := ih
    exact ⟨t, _, rfl, hbegins⟩
  | expressionStatement _ ih =>
    obtain ⟨t, us, rfl, hbegins⟩ := ih
    exact ⟨t, us, rfl, hbegins.opens, hbegins.paren, hbegins.char⟩
  | whileLoop hw _ _ _ hb _ _ =>
    exact ⟨_, _, rfl, Node.begins_of_cons (c := 'w') (Node.toList_print_whileLoop _ hb.present)
      (by rw [hw]; rfl) (by simp [hw])⟩
  | forLoop hf _ _ _ _ _ _ _ hb _ _ _ _ =>
    exact ⟨_, _, rfl, Node.begins_of_cons (c := 'f') (Node.toList_print_forLoop _ _ _ hb.present)
      (by rw [hf]; rfl) (by simp [hf])⟩
  | declaration hl _ _ _ _ =>
    exact ⟨_, _, rfl, Node.begins_of_cons (c := 'l')
      (Node.toList_print_declaration ..) (by rw [hl]; rfl)
      (by simp [hl])⟩
  | @assignment t a ts span span₁ value ht _ _ _ =>
    obtain ⟨c, cs, htext, hc⟩ := ht.text
    have hprint : (Node.assignment span ⟨t.text, span₁⟩ value).print.toList =
        c :: (cs ++ ' ' :: '=' :: ' ' :: (value.print.toList ++ [';'])) := by
      rw [Node.toList_print_assignment, htext, List.cons_append]
    exact ⟨t, _, rfl, Node.begins_of_cons hprint (by rw [ht.kind]; rfl) (by simp [ht.kind, hc])⟩

theorem Prints.arguments_ne_nil {e : Node} {es : List Node} {ts : List Token}
    (h : Prints (.arguments (e :: es)) ts) : ts ≠ [] := by
  cases h with
  | lastArgument h =>
    obtain ⟨t, us, rfl, -⟩ := h.begins
    exact List.cons_ne_nil _ _
  | nextArgument => simp

/-- What stands behind a printed statement in front of others. -/
theorem Prints.opens_statements {ns : List Node} {ts : List Token} (h : Prints (.statements ns) ts)
    {k : Kind} (hk : k.opensStatement) (hp : k ≠ .leftParen) :
    (firstKind ts k).opensStatement ∧
      (firstKind ts k = .leftParen ↔
        ∃ m rest, ns = m :: rest ∧ m.print.toList.head? = some '(') := by
  cases h with
  | noStatements =>
    refine ⟨hk, ⟨fun h => absurd h hp, ?_⟩⟩
    rintro ⟨m, rest, hm, -⟩
    cases hm
  | @statements ts us n ns hn hns =>
    obtain ⟨t, vs, rfl, hbegins⟩ := hn.begins
    refine ⟨hbegins.opens, ?_⟩
    rw [List.cons_append, firstKind_cons, hbegins.paren]
    constructor
    · exact fun h => ⟨n, ns, rfl, h⟩
    · rintro ⟨m, rest, hm, h⟩
      cases hm
      exact h

/-- No integer is printed with too many digits to be read. -/
theorem Prints.readable {part : Part} {ts : List Token} (h : Prints part ts) : Readable ts := by
  induction h with
  | identifier ht => simp [ht.kind]
  | integer _ hl _ => simp [hl]
  | unary ho ht _ hc ih => rcases ht with ht | ht <;> simp [ho, ht, hc, ih]
  | binary ho _ hop _ hc ih₁ ih₂ => simp [ho, hc, ih₁, ih₂, Kind.infix_ne_integer hop]
  | function hf ho hps hc _ ih => simp [hf, ho, hc, ih, hps.readable]
  | assignment ht ha _ ih => simp [ht.kind, ha, ih]
  | _ => simp [*]

/-! ## Reading what is printed -/

/-- How a printed part is read. Expressions as statements have no semicolon, so what
follows must not be taken for more of them. -/
def Part.Returns (ts : List Token) : Part → Prop
  | .statements ns => ∀ k, k = .rightBrace ∨ k = .endOfText → Reads (.statements ns) ts k
  | .statement n => ∀ k, k.opensStatement → (∀ span e, n = .expression span e → k ≠ .leftParen) →
      Reads (.statement n) ts k
  | part => part.Read ts

/-- What opens a statement goes on with no expression, unless it is a parenthesis. -/
theorem Kind.opens_facts {k : Kind} (h : k.opensStatement) (hp : k ≠ .leftParen) :
    k.strength ≤ lowest ∧ k ≠ .elseWord ∧ k ≠ .assign ∧ k ≠ .semicolon := by
  revert h hp
  cases k <;> decide

/-! What separates a tree separates its parts. -/

namespace Part

variable {e left right : Node} {es ns : List Node} {span : Option Span} {least : Nat}

/-- Statements inside an operation are those inside its operands. -/
theorem separate_binary {operator : String} :
    (expression least (.binary span left operator right)).Separate ↔
      (expression least left).Separate ∧ (expression least right).Separate :=
  List.forall_mem_append

/-- Statements inside a call are those inside its callee and its arguments. -/
theorem separate_call :
    (expression least (.call span e es)).Separate ↔
      (expression least e).Separate ∧ (arguments es).Separate :=
  List.forall_mem_append

/-- Statements inside a conditional are those inside its parts. -/
theorem separate_conditional {condition consequence alternative : Node} :
    (expression least (.conditional span condition consequence alternative)).Separate ↔
      (expression least condition).Separate ∧ (block consequence).Separate ∧
        (block alternative).Separate := by
  refine List.forall_mem_append.trans ?_
  rw [List.forall_mem_append, and_assoc]
  rfl

theorem separate_arguments_cons :
    (arguments (e :: es)).Separate ↔ (expression least e).Separate ∧ (arguments es).Separate :=
  List.forall_mem_append

/-- Statements are separate if the first one is from the next one, and inside. -/
theorem separate_statements_cons {n : Node} :
    (statements (n :: ns)).Separate ↔
      (∀ span e, n = .expression span e → ∀ m rest, ns = m :: rest →
        m.print.toList.head? ≠ some '(') ∧ (statement n).Separate ∧ (statements ns).Separate := by
  refine List.forall_mem_cons.trans ?_
  rw [Node.listsAll, List.forall_mem_append, parted_cons, and_assoc]
  refine and_congr_right fun _ => ?_
  rw [and_left_comm]
  exact and_congr_right fun _ => List.forall_mem_cons.symm

theorem separate_whileLoop {condition body : Node} :
    (statement (.whileLoop span condition body)).Separate ↔
      (expression loosest condition).Separate ∧ (block body).Separate :=
  List.forall_mem_append

theorem separate_forLoop {init condition post body : Node} :
    (statement (.forLoop span init condition post body)).Separate ↔
      (clause init).Separate ∧ (expression loosest condition).Separate ∧ (clause post).Separate ∧
        (block body).Separate := by
  refine List.forall_mem_append.trans ?_
  rw [List.forall_mem_append, List.forall_mem_append, and_assoc, and_assoc]
  rfl

end Part

/-- **Printed parts are read as they are**, unless neighbours are printed as one. -/
theorem Prints.returns {part : Part} {ts : List Token} (h : Prints part ts) (hs : part.Separate) :
    part.Returns ts := by
  induction h with
  | identifier ht => exact read_operand fun _ _ => .identifier ht.kind
  | integer ht hl hv => exact read_operand fun _ _ => hv ▸ .integer ht hl
  | @unary o t c ts least span e ho ht _ hc ih =>
    have hinner : (Part.expression loosest (.unary span t.text e)).Read (t :: ts) :=
      read_signed (by decide) ht (ih hs)
    exact read_operand fun _ _ => .grouped ho (hinner.closed (by decide) (by decide)) hc
  | @binary o op c ts us least span left right ho _ hop _ hc ih₁ ih₂ =>
    obtain ⟨hs₁, hs₂⟩ := Part.separate_binary.1 hs
    obtain ⟨hlow, -, -, -⟩ := Kind.infix_facts hop
    have hinner :
        (Part.expression loosest (.binary span left op.text right)).Read (ts ++ op :: us) :=
      read_infixed hlow hop (ih₁ hs₁) (ih₂ hs₂)
    have hgrouped := fun k => Reads.grouped (k := k) ho
      (hinner.closed (k := .rightParen) (by decide) (by decide)) hc
    refine read_operand fun k _ => ?_
    have hall := hgrouped k
    rwa [List.append_assoc, List.cons_append] at hall
  | call _ ho _ hc ih₁ ih₂ =>
    obtain ⟨hs₁, hs₂⟩ := Part.separate_call.1 hs
    exact read_call ho hc (ih₁ hs₁) (ih₂ hs₂)
  | function hf ho hps hc _ ih =>
    refine read_operand fun k _ => ?_
    rw [List.append_cons]
    exact .function hf ho (hps.parameters hc) (ih hs k)
  | ifOnly hi ho _ hc _ ih₁ ih₂ =>
    obtain ⟨hs₁, hs₂, -⟩ := Part.separate_conditional.1 hs
    have hr := (ih₁ hs₁).closed (k := .rightParen) (by decide) (by decide)
    exact read_operand fun k hk => .choice (.ifOnly hi ho hr hc (ih₂ hs₂ k) hk)
  | ifElse hi ho _ hc _ he _ ih₁ ih₂ ih₃ =>
    obtain ⟨hs₁, hs₂, hs₃⟩ := Part.separate_conditional.1 hs
    have hr := (ih₁ hs₁).closed (k := .rightParen) (by decide) (by decide)
    exact read_operand fun k _ =>
      .choice (.ifElse hi ho hr hc (ih₂ hs₂ .elseWord) he (ih₃ hs₃ k))
  | noArguments => exact fun c k hc => .noArguments hc
  | lastArgument _ ih =>
    intro c k hc
    have hr := (ih (Part.separate_arguments_cons.1 hs).1).closed (k := .rightParen) (by decide)
      (by decide)
    exact .arguments (by rwa [firstKind_cons, hc]) (.lastArgument hc)
  | @nextArgument c ts us e e' es _ hcomma h ih₁ ih₂ =>
    obtain ⟨hs₁, hs₂⟩ := Part.separate_arguments_cons.1 hs
    intro c k hc
    have hr := (ih₁ hs₁).closed (k := .comma) (by decide) (by decide)
    exact hr.arguments_cons hcomma h.arguments_ne_nil (ih₂ hs₂ c k hc)
  | block ho _ hc ih => exact fun k => .block ho (ih hs .rightBrace (.inl rfl)) hc
  | noStatements => exact fun k _ => .noStatements
  | @statements ts us n ns hn hns ih₁ ih₂ =>
    obtain ⟨hhead, hs₁, hs₂⟩ := Part.separate_statements_cons.1 hs
    intro k hk
    have hopens : k.opensStatement ∧ k ≠ .leftParen := by
      rcases hk with rfl | rfl <;> decide
    obtain ⟨ho, hp⟩ := hns.opens_statements hopens.1 hopens.2
    refine .statements (ih₁ hs₁ _ ho fun span e he hparen => ?_) (ih₂ hs₂ k hk)
    obtain ⟨m, rest, hm, hchar⟩ := hp.1 hparen
    exact hhead span e he m rest hm hchar
  | @binding t ts n h ht ih =>
    intro k _ _
    have hr : Reads (.binding n) ts (firstKind [t] k) := ih hs _ (.inl ht)
    exact .binding hr (.semicolon ht)
  | @expressionStatement ts span e h ih =>
    intro k hk hp
    obtain ⟨hstrength, helse, hassign, hsemicolon⟩ := Kind.opens_facts hk (hp span e rfl)
    have hr := (ih hs).closed hstrength helse
    obtain ⟨t, us, rfl, -⟩ := hr.first trivial
    have hall : Reads (.statement (.expression span e)) (t :: us ++ []) k :=
      .expressionStatement hr (.omitted hsemicolon) fun hi => by
        rw [List.append_nil]
        exact hr.no_assign (Nat.le_refl _) hassign hi
    rwa [List.append_nil] at hall
  | whileLoop hw ho _ hc _ ih₁ ih₂ =>
    obtain ⟨hs₁, hs₂⟩ := Part.separate_whileLoop.1 hs
    have hr := (ih₁ hs₁).closed (k := .rightParen) (by decide) (by decide)
    exact fun k _ _ => .whileLoop hw ho hr hc (ih₂ hs₂ k)
  | forLoop hf ho _ h₁ _ h₂ _ hc _ ih₁ ih₂ ih₃ ih₄ =>
    obtain ⟨hs₁, hs₂, hs₃, hs₄⟩ := Part.separate_forLoop.1 hs
    have hr := (ih₂ hs₂).closed (k := .semicolon) (by decide) (by decide)
    exact fun k _ _ => .forLoop hf ho (ih₁ hs₁ _ (.inl rfl)) h₁ hr h₂ (ih₃ hs₃ _ (.inr rfl)) hc
      (ih₄ hs₄ k)
  | declaration hl ht ha _ ih =>
    rintro k (rfl | rfl)
    · exact .declaration hl ht ha ((ih hs).closed (by decide) (by decide))
    · exact .declaration hl ht ha ((ih hs).closed (by decide) (by decide))
  | assignment ht ha _ ih =>
    rintro k (rfl | rfl)
    · exact .assignment ht.kind ha ((ih hs).closed (by decide) (by decide))
    · exact .assignment ht.kind ha ((ih hs).closed (by decide) (by decide))

end Ember

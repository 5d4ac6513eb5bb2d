import Ember.Source

/-!
# Syntax trees

A program is a tree of nodes. One type holds every kind of node, because a tree
need not be well formed: where the text was not understood a subtree is
`Node.missing`, and a tree that was not read from a text may hold any node
anywhere. Evaluation reports what stands in the wrong place.

`Node.erase` forgets all spans; two trees are equal up to spans when their
erased forms are equal.
-/

namespace Ember

/-- A name that is bound: a parameter, or the target of a declaration or an
assignment. -/
structure Name where
  text : String
  span : Option Span := none
deriving DecidableEq, Repr, Inhabited

/-- A node of a syntax tree. -/
inductive Node where
  /-- The place of a subtree that is not there. -/
  | missing
  | identifier (span : Option Span) (name : String)
  | integer (span : Option Span) (value : Int)
  | unary (span : Option Span) (operator : String) (operand : Node)
  | binary (span : Option Span) (left : Node) (operator : String) (right : Node)
  /-- A choice between two blocks; the second may be missing. -/
  | conditional (span : Option Span) (condition consequence alternative : Node)
  | function (span : Option Span) (parameters : List Name) (body : Node)
  | call (span : Option Span) (callee : Node) (arguments : List Node)
  /-- A declaration, which gives its name a new cell. -/
  | declaration (span : Option Span) (name : Name) (value : Node)
  /-- An assignment, which writes to the cell that its name has. -/
  | assignment (span : Option Span) (name : Name) (value : Node)
  /-- An expression used as a statement. -/
  | expression (span : Option Span) (expression : Node)
  | block (span : Option Span) (statements : List Node)
  | whileLoop (span : Option Span) (condition body : Node)
  | forLoop (span : Option Span) (init condition post body : Node)
  | program (span : Option Span) (statements : List Node)
deriving Repr, Inhabited

namespace Node

/-- The name of a node's kind in listings and messages. -/
def kindName : Node → String
  | missing => "NoneType"
  | identifier .. => "Identifier"
  | integer .. => "IntegerLiteral"
  | unary .. => "UnaryOp"
  | binary .. => "BinaryOp"
  | conditional .. => "IfExpr"
  | function .. => "FunctionLiteral"
  | call .. => "FunctionCall"
  | declaration .. => "LetStatement"
  | assignment .. => "AssignmentStatement"
  | expression .. => "ExpressionStatement"
  | block .. => "Block"
  | whileLoop .. => "WhileStatement"
  | forLoop .. => "ForStatement"
  | program .. => "Program"

/-- Where a node stands in its source, if it comes from one. -/
def span? : Node → Option Span
  | missing => none
  | identifier s .. | integer s .. | unary s .. | binary s .. | conditional s .. | function s ..
  | call s .. | declaration s .. | assignment s .. | expression s .. | block s ..
  | whileLoop s .. | forLoop s .. | program s .. => s

/-- Whether there is no subtree here. -/
def isMissing : Node → Bool
  | missing => true
  | _ => false

/-- The statements of a node that is a list of them. -/
def statements? : Node → Option (List Node)
  | block _ statements | program _ statements => some statements
  | _ => none

mutual

/-- The tree without its spans. -/
def erase : Node → Node
  | missing => missing
  | identifier _ name => identifier none name
  | integer _ value => integer none value
  | unary _ operator operand => unary none operator operand.erase
  | binary _ left operator right => binary none left.erase operator right.erase
  | conditional _ condition consequence alternative =>
    conditional none condition.erase consequence.erase alternative.erase
  | function _ parameters body =>
    function none (parameters.map fun p => { text := p.text }) body.erase
  | call _ callee arguments => call none callee.erase (eraseAll arguments)
  | declaration _ name value => declaration none { text := name.text } value.erase
  | assignment _ name value => assignment none { text := name.text } value.erase
  | expression _ e => expression none e.erase
  | block _ statements => block none (eraseAll statements)
  | whileLoop _ condition body => whileLoop none condition.erase body.erase
  | forLoop _ init condition post body =>
    forLoop none init.erase condition.erase post.erase body.erase
  | program _ statements => program none (eraseAll statements)

/-- A list of trees without their spans. -/
def eraseAll : List Node → List Node
  | [] => []
  | n :: ns => n.erase :: eraseAll ns

end

@[simp]
theorem eraseAll_eq_map (ns : List Node) : eraseAll ns = ns.map erase := by
  induction ns with
  | nil => rfl
  | cons n ns ih => simp [eraseAll, ih]

@[simp]
theorem isMissing_erase (n : Node) : n.erase.isMissing = n.isMissing := by
  cases n <;> rfl

mutual

/-- Whether two trees are equal up to spans. -/
def sameAs : Node → Node → Bool
  | missing, missing => true
  | identifier _ x, identifier _ y => x = y
  | integer _ m, integer _ n => m = n
  | unary _ o a, unary _ p b => o = p && a.sameAs b
  | binary _ a o b, binary _ c p d => a.sameAs c && o = p && b.sameAs d
  | conditional _ a b c, conditional _ d e f => a.sameAs d && b.sameAs e && c.sameAs f
  | function _ ps a, function _ qs b => ps.map Name.text = qs.map Name.text && a.sameAs b
  | call _ a as, call _ b bs => a.sameAs b && sameAsAll as bs
  | declaration _ x a, declaration _ y b => x.text = y.text && a.sameAs b
  | assignment _ x a, assignment _ y b => x.text = y.text && a.sameAs b
  | expression _ a, expression _ b => a.sameAs b
  | block _ as, block _ bs => sameAsAll as bs
  | whileLoop _ a b, whileLoop _ c d => a.sameAs c && b.sameAs d
  | forLoop _ a b c d, forLoop _ a' b' c' d' =>
    a.sameAs a' && b.sameAs b' && c.sameAs c' && d.sameAs d'
  | program _ as, program _ bs => sameAsAll as bs
  | _, _ => false

/-- Whether two lists hold the same trees up to spans. -/
def sameAsAll : List Node → List Node → Bool
  | [], [] => true
  | a :: as, b :: bs => a.sameAs b && sameAsAll as bs
  | _, _ => false

end

theorem map_erase_inj {ps qs : List Name} :
    ps.map (fun p => ({ text := p.text } : Name)) = qs.map (fun p => { text := p.text }) ↔
      ps.map Name.text = qs.map Name.text := by
  induction ps generalizing qs with
  | nil => cases qs <;> simp
  | cons p ps ih => cases qs <;> simp [ih]

mutual

/-- Trees are the same if they are equal once their spans are forgotten. -/
theorem sameAs_iff : ∀ a b : Node, a.sameAs b = true ↔ a.erase = b.erase
  | missing, b => by cases b <;> simp [sameAs, erase]
  | identifier .., b => by cases b <;> simp [sameAs, erase]
  | integer .., b => by cases b <;> simp [sameAs, erase]
  | unary _ _ a, b => by cases b <;> simp [sameAs, erase, sameAs_iff a]
  | binary _ a _ c, b => by cases b <;> simp [sameAs, erase, sameAs_iff a, sameAs_iff c, and_assoc]
  | conditional _ a c d, b => by
    cases b <;> simp [sameAs, erase, sameAs_iff a, sameAs_iff c, sameAs_iff d, and_assoc]
  | function _ _ a, b => by cases b <;> simp [sameAs, erase, sameAs_iff a, map_erase_inj]
  | call _ a as, b => by cases b <;> simp [sameAs, erase, sameAs_iff a, sameAsAll_iff as]
  | declaration _ _ a, b => by cases b <;> simp [sameAs, erase, sameAs_iff a]
  | assignment _ _ a, b => by cases b <;> simp [sameAs, erase, sameAs_iff a]
  | expression _ a, b => by cases b <;> simp [sameAs, erase, sameAs_iff a]
  | block _ as, b => by cases b <;> simp [sameAs, erase, sameAsAll_iff as]
  | whileLoop _ a c, b => by cases b <;> simp [sameAs, erase, sameAs_iff a, sameAs_iff c]
  | forLoop _ i c p d, b => by
    cases b <;>
      simp [sameAs, erase, sameAs_iff i, sameAs_iff c, sameAs_iff p, sameAs_iff d, and_assoc]
  | program _ as, b => by cases b <;> simp [sameAs, erase, sameAsAll_iff as]

theorem sameAsAll_iff : ∀ as bs : List Node,
    sameAsAll as bs = true ↔ as.map erase = bs.map erase
  | [], bs => by cases bs <;> simp [sameAsAll]
  | a :: as, bs => by cases bs <;> simp [sameAsAll, sameAs_iff a, sameAsAll_iff as]

end

end Node

/-- A whole program: its statements, and the stretch of text that it covers. -/
structure Program where
  span : Option Span
  statements : List Node
deriving Repr, Inhabited

/-- A program as a tree. -/
def Program.toNode (p : Program) : Node :=
  .program p.span p.statements

end Ember

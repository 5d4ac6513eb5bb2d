import Ember.Node
import Ember.Text.Quoted

/-!
# Trees as listings

`Node.dump` lists a tree, one node or field a line, each level four columns
further in. Unlike the printed form it shows the tree itself: names and
operators are quoted and missing subtrees are marked.

The second part lists the nodes of a tree with their spans, parents first.
-/

namespace Ember.Node

/-- A line of a listing: how far in it stands, and its text. -/
structure DumpLine where
  indent : Nat
  text : String
deriving DecidableEq, Repr

/-- A line with its indentation. -/
def DumpLine.render (l : DumpLine) : String :=
  String.ofList (List.replicate l.indent ' ') ++ l.text

/-- The lines two columns further in. -/
def inward (ls : List DumpLine) : List DumpLine :=
  ls.map fun l => { l with indent := l.indent + 2 }

/-- A node of a kind, with the lines of its fields. -/
def dumpNode (kind : String) (fields : List DumpLine) : List DumpLine :=
  ⟨0, kind⟩ :: inward fields

/-- A field with a plain value. -/
def dumpValue (label value : String) : List DumpLine :=
  [⟨0, label ++ ": " ++ value⟩]

/-- A field that holds a tree with the given lines. -/
def dumpTree (label : String) (n : Node) (inner : List DumpLine) : List DumpLine :=
  if n.isMissing then dumpValue label "None" else ⟨0, label ++ ":"⟩ :: inward inner

/-- A field that holds a list of trees with the given lines. -/
def dumpList (label : String) (inner : List DumpLine) : List DumpLine :=
  ⟨0, label ++ ": ["⟩ :: (inward inner ++ [⟨0, "]"⟩])

/-- A name, listed like an identifier. -/
def dumpName (n : Name) : List DumpLine :=
  dumpNode "Identifier" (dumpValue "name" (Text.quoted n.text))

mutual

/-- The lines of a tree. -/
def dumpLines : Node → List DumpLine
  | missing => [⟨0, "None"⟩]
  | identifier _ name => dumpNode "Identifier" (dumpValue "name" (Text.quoted name))
  | integer _ value => dumpNode "IntegerLiteral" (dumpValue "value" (toString value))
  | unary _ operator operand => dumpNode "UnaryOp" <|
    dumpValue "operator" (Text.quoted operator) ++ dumpTree "operand" operand operand.dumpLines
  | binary _ left operator right => dumpNode "BinaryOp" <|
    dumpTree "left" left left.dumpLines ++ (dumpValue "operator" (Text.quoted operator) ++
      dumpTree "right" right right.dumpLines)
  | conditional _ condition consequence alternative => dumpNode "IfExpr" <|
    dumpTree "condition" condition condition.dumpLines ++
      (dumpTree "consequence" consequence consequence.dumpLines ++
        dumpTree "alternative" alternative alternative.dumpLines)
  | function _ parameters body => dumpNode "FunctionLiteral" <|
    dumpList "parameters" (parameters.flatMap dumpName) ++ dumpTree "body" body body.dumpLines
  | call _ callee arguments => dumpNode "FunctionCall" <|
    dumpTree "callee" callee callee.dumpLines ++ dumpList "arguments" (dumpItems arguments)
  | declaration _ name value => dumpNode "LetStatement" <|
    (⟨0, "name:"⟩ :: inward (dumpName name)) ++ dumpTree "value" value value.dumpLines
  | assignment _ name value => dumpNode "AssignmentStatement" <|
    (⟨0, "name:"⟩ :: inward (dumpName name)) ++ dumpTree "value" value value.dumpLines
  | expression _ e => dumpNode "ExpressionStatement" (dumpTree "expression" e e.dumpLines)
  | block _ statements => dumpNode "Block" (dumpList "statements" (dumpItems statements))
  | whileLoop _ condition body => dumpNode "WhileStatement" <|
    dumpTree "condition" condition condition.dumpLines ++ dumpTree "body" body body.dumpLines
  | forLoop _ init condition post body => dumpNode "ForStatement" <|
    dumpTree "init" init init.dumpLines ++ (dumpTree "condition" condition condition.dumpLines ++
      (dumpTree "post" post post.dumpLines ++ dumpTree "body" body body.dumpLines))
  | program _ statements => dumpNode "Program" (dumpList "statements" (dumpItems statements))

/-- The lines of the trees of a list. -/
def dumpItems : List Node → List DumpLine
  | [] => []
  | n :: ns => n.dumpLines ++ dumpItems ns

end

/-- The listing of a tree. -/
def dump (n : Node) : String :=
  "\n".intercalate (n.dumpLines.map DumpLine.render)

/-! ## Nodes and their spans -/

/-- A name as a node of the tree. -/
def nameSpan (n : Name) : String × Option Span :=
  ("Identifier", n.span)

mutual

/-- The kinds and spans of all nodes that are present, parents first. -/
def spans : Node → List (String × Option Span)
  | missing => []
  | identifier s _ => [("Identifier", s)]
  | integer s _ => [("IntegerLiteral", s)]
  | unary s _ operand => ("UnaryOp", s) :: operand.spans
  | binary s left _ right => ("BinaryOp", s) :: (left.spans ++ right.spans)
  | conditional s condition consequence alternative =>
    ("IfExpr", s) :: (condition.spans ++ (consequence.spans ++ alternative.spans))
  | function s parameters body =>
    ("FunctionLiteral", s) :: (parameters.map nameSpan ++ body.spans)
  | call s callee arguments => ("FunctionCall", s) :: (callee.spans ++ spansOfAll arguments)
  | declaration s name value => ("LetStatement", s) :: nameSpan name :: value.spans
  | assignment s name value => ("AssignmentStatement", s) :: nameSpan name :: value.spans
  | expression s e => ("ExpressionStatement", s) :: e.spans
  | block s statements => ("Block", s) :: spansOfAll statements
  | whileLoop s condition body => ("WhileStatement", s) :: (condition.spans ++ body.spans)
  | forLoop s init condition post body =>
    ("ForStatement", s) :: (init.spans ++ (condition.spans ++ (post.spans ++ body.spans)))
  | program s statements => ("Program", s) :: spansOfAll statements

/-- The kinds and spans of the nodes of a list of trees. -/
def spansOfAll : List Node → List (String × Option Span)
  | [] => []
  | n :: ns => n.spans ++ spansOfAll ns

end

end Ember.Node

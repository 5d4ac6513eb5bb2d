import Ember.Node

/-!
# Trees as source text

`Node.print` writes a tree in the form of source text, every operator in its
own parentheses. A missing expression prints as nothing, a missing statement or
body as `None`.

Printing a tree nests calls of the machine, as many as the tree has levels and some
more. A `Stack` says which trees are printed with the calls that are left.
-/

namespace Ember

/-- A text without the semicolons at its end. -/
def dropSemicolons (s : String) : String :=
  String.ofList (s.toList.reverse.dropWhile (· = ';')).reverse

/-- What stands for a missing statement or body. -/
def absent : String := "None"

namespace Node

mutual

/-- A tree as source text, with `gap` for a tree that is missing. -/
def printOr (gap : String) : Node → String
  | missing => gap
  | identifier _ name => name
  | integer _ value => toString value
  | unary _ operator operand => "(" ++ operator ++ operand.printOr "" ++ ")"
  | binary _ left operator right =>
    "(" ++ left.printOr "" ++ " " ++ operator ++ " " ++ right.printOr "" ++ ")"
  | conditional _ condition consequence missing =>
    "if (" ++ condition.printOr "" ++ ") " ++ consequence.printOr absent
  | conditional _ condition consequence alternative =>
    "if (" ++ condition.printOr "" ++ ") " ++ consequence.printOr absent ++
      " else " ++ alternative.printOr absent
  | function _ parameters body =>
    "function(" ++ ", ".intercalate (parameters.map Name.text) ++ ") " ++ body.printOr absent
  | call _ callee arguments =>
    callee.printOr "" ++ "(" ++ ", ".intercalate (printAllOr "" arguments) ++ ")"
  | declaration _ name value => "let " ++ name.text ++ " = " ++ value.printOr "" ++ ";"
  | assignment _ name value => name.text ++ " = " ++ value.printOr "" ++ ";"
  | expression _ e => e.printOr ""
  | block _ [] => "\x7b \x7d"
  | block _ statements => "\x7b " ++ " ".intercalate (printAllOr absent statements) ++ " \x7d"
  | whileLoop _ condition body => "while (" ++ condition.printOr "" ++ ") " ++ body.printOr absent
  | forLoop _ init condition post body =>
    "for (" ++ dropSemicolons (init.printOr "") ++ "; " ++ condition.printOr "" ++ "; " ++
      dropSemicolons (post.printOr "") ++ ") " ++ body.printOr absent
  | program _ statements => "\n".intercalate (printAllOr absent statements)

/-- The trees of a list as source text. -/
def printAllOr (gap : String) : List Node → List String
  | [] => []
  | n :: ns => n.printOr gap :: printAllOr gap ns

end

/-- A tree as source text. -/
def print (n : Node) : String :=
  n.printOr ""

mutual

/-- The levels of a tree: one for the node, and those of its highest part. -/
def levels : Node → Nat
  | missing => 0
  | identifier .. | integer .. => 1
  | unary _ _ operand => operand.levels + 1
  | binary _ left _ right => max left.levels right.levels + 1
  | conditional _ condition consequence alternative =>
    max condition.levels (max consequence.levels alternative.levels) + 1
  | function _ _ body => body.levels + 1
  | call _ callee arguments => max callee.levels (levelsOfAll arguments) + 1
  | declaration _ _ value | assignment _ _ value => value.levels + 1
  | expression _ e => e.levels + 1
  | block _ statements | program _ statements => levelsOfAll statements + 1
  | whileLoop _ condition body => max condition.levels body.levels + 1
  | forLoop _ init condition post body =>
    max (max init.levels condition.levels) (max post.levels body.levels) + 1

/-- The levels of the highest of some trees. -/
def levelsOfAll : List Node → Nat
  | [] => 0
  | n :: ns => max n.levels (levelsOfAll ns)

end

end Node

/-! ## The stack -/

/-- The stack of the machine where something is shown. How many calls it takes to print a tree
depends on the machine: at least one for each level, and at most ten. -/
structure Stack where
  /-- The calls that can still be nested. -/
  room : Nat
  /-- Whether a tree is printed with them. -/
  prints : Node → Bool
  prints_of_low : ∀ n, 10 * n.levels ≤ room → prints n = true
  not_prints_of_high : ∀ n, room < n.levels → prints n = false

/-- A stack on which nothing was called yet, and a tree takes three calls for each level. -/
def Stack.standard : Stack where
  room := 1000
  prints := fun n => 3 * n.levels ≤ 1000
  prints_of_low := by
    intro n hlow
    exact decide_eq_true (by omega)
  not_prints_of_high := by
    intro n hhigh
    exact decide_eq_false (by omega)

end Ember

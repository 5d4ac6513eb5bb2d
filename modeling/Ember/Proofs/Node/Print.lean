import Ember.Node.Print

/-!
# The characters of printed trees

What the text of a tree consists of, kind by kind, as a list of characters. Only a missing
tree depends on what is printed for it.
-/

namespace Ember

/-- Printed trees with a separator between them. -/
def printedList (separator : List Char) : List Node → List Char
  | [] => []
  | [n] => n.print.toList
  | n :: m :: ns => n.print.toList ++ separator ++ printedList separator (m :: ns)

namespace Node

variable {span : Option Span}

/-- What is printed for a missing tree matters only if one is missing. -/
theorem printOr_of_present {n : Node} (gap : String) (h : n.isMissing = false) :
    n.printOr gap = n.print := by
  cases n with
  | missing => cases h
  | conditional _ _ _ alternative => cases alternative <;> rfl
  | block _ ns => cases ns <;> rfl
  | _ => rfl

/-- Trees that are there are printed with separators between them. -/
theorem toList_intercalate_printAllOr (separator gap : String) {ns : List Node}
    (h : ∀ n ∈ ns, n.isMissing = false) :
    (separator.intercalate (printAllOr gap ns)).toList = printedList separator.toList ns := by
  induction ns with
  | nil => rfl
  | cons n ns ih =>
    obtain ⟨hn, hns⟩ := List.forall_mem_cons.1 h
    have hi := ih hns
    cases ns with
    | nil =>
      simp only [printAllOr, printedList, printOr_of_present gap hn, String.intercalate_singleton]
    | cons m ns =>
      rw [printAllOr, printAllOr, String.intercalate_cons_cons, String.toList_append,
        String.toList_append, printOr_of_present gap hn, printedList, ← hi]
      rfl

-- each lemma below opens the printer at one kind of tree; its equations are made here, once
attribute [local simp] print printOr

theorem print_integer (value : Int) : (integer span value).print = toString value := rfl

/-- A sign is printed in front of its operand, in parentheses. -/
theorem toList_print_unary (operator : String) (e : Node) :
    (unary span operator e).print.toList =
      '(' :: (operator.toList ++ (e.print.toList ++ [')'])) := by
  simp

/-- An operator is printed between its operands, in parentheses. -/
theorem toList_print_binary (left right : Node) (operator : String) :
    (binary span left operator right).print.toList =
      '(' :: (left.print.toList ++
        ' ' :: (operator.toList ++ ' ' :: (right.print.toList ++ [')']))) := by
  simp

/-- A call is printed without parentheses around it. -/
theorem toList_print_call (callee : Node) {args : List Node}
    (h : ∀ n ∈ args, n.isMissing = false) :
    (call span callee args).print.toList =
      callee.print.toList ++ '(' :: (printedList [',', ' '] args ++ [')']) := by
  simp [toList_intercalate_printAllOr ", " "" h]

theorem toList_print_function (parameters : List Name) {body : Node}
    (h : body.isMissing = false) :
    (function span parameters body).print.toList =
      "function".toList ++ '(' :: ((", ".intercalate (parameters.map Name.text)).toList ++
        ')' :: ' ' :: body.print.toList) := by
  simp [printOr_of_present absent h]

theorem toList_print_ifOnly (condition : Node) {consequence : Node}
    (h : consequence.isMissing = false) :
    (conditional span condition consequence missing).print.toList =
      "if".toList ++ ' ' :: '(' :: (condition.print.toList ++ ')' :: ' ' ::
        consequence.print.toList) := by
  simp [printOr_of_present absent h]

theorem toList_print_ifElse (condition : Node) {consequence alternative : Node}
    (h : consequence.isMissing = false) (h' : alternative.isMissing = false) :
    (conditional span condition consequence alternative).print.toList =
      "if".toList ++ ' ' :: '(' :: (condition.print.toList ++ ')' :: ' ' ::
        (consequence.print.toList ++ ' ' ::
          ("else".toList ++ ' ' :: alternative.print.toList))) := by
  have hprint : (conditional span condition consequence alternative).print =
      "if (" ++ condition.printOr "" ++ ") " ++ consequence.printOr absent ++
        " else " ++ alternative.printOr absent := by
    cases alternative with
    | missing => cases h'
    | _ => rfl
  rw [hprint]
  simp only [String.toList_append, List.append_assoc, printOr_of_present absent h,
    printOr_of_present absent h']
  rfl

theorem toList_print_block_nil : (block span []).print.toList = ['\x7b', ' ', '\x7d'] := by
  simp

/-- A block is printed on one line, with blanks between its statements. -/
theorem toList_print_block_cons {n : Node} {ns : List Node}
    (h : ∀ m ∈ n :: ns, m.isMissing = false) :
    (block span (n :: ns)).print.toList =
      '\x7b' :: ' ' :: (printedList [' '] (n :: ns) ++ [' ', '\x7d']) := by
  simp [toList_intercalate_printAllOr " " absent h]

/-- A declaration is printed with its semicolon. -/
theorem toList_print_declaration (name : Name) (value : Node) :
    (declaration span name value).print.toList =
      "let".toList ++ ' ' :: (name.text.toList ++ ' ' :: '=' :: ' ' ::
        (value.print.toList ++ [';'])) := by
  simp

/-- An assignment is printed with its semicolon. -/
theorem toList_print_assignment (name : Name) (value : Node) :
    (assignment span name value).print.toList =
      name.text.toList ++ ' ' :: '=' :: ' ' :: (value.print.toList ++ [';']) := by
  simp

theorem toList_print_whileLoop (condition : Node) {body : Node} (h : body.isMissing = false) :
    (whileLoop span condition body).print.toList =
      "while".toList ++
        ' ' :: '(' :: (condition.print.toList ++ ')' :: ' ' :: body.print.toList) := by
  simp [printOr_of_present absent h]

/-- A counting loop is printed with one semicolon behind each clause. -/
theorem toList_print_forLoop (init condition post : Node) {body : Node}
    (h : body.isMissing = false) :
    (forLoop span init condition post body).print.toList =
      "for".toList ++ ' ' :: '(' :: ((dropSemicolons init.print).toList ++ ';' :: ' ' ::
        (condition.print.toList ++ ';' :: ' ' :: ((dropSemicolons post.print).toList ++
          ')' :: ' ' :: body.print.toList))) := by
  simp [printOr_of_present absent h]

/-- A program is printed with a line for each statement. -/
theorem toList_print_program {ns : List Node} (h : ∀ n ∈ ns, n.isMissing = false) :
    (program span ns).print.toList = printedList ['\n'] ns :=
  toList_intercalate_printAllOr "\n" absent h

/-- The semicolon at the end of a text is dropped, and what stands in front of it is kept. -/
theorem toList_dropSemicolons {s : String} {cs : List Char} {c : Char}
    (hs : s.toList = cs ++ [c] ++ [';']) (hc : c ≠ ';') :
    (dropSemicolons s).toList = cs ++ [c] := by
  rw [dropSemicolons, String.toList_ofList, hs]
  simp [hc]

end Node

end Ember

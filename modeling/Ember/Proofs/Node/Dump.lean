import Ember.Node.Dump
import Ember.Proofs.Text.Quoted

/-!
# Listings tell trees apart

A listing is a text of lines, and it tells them: no line holds a break, and none starts with a
space behind its indentation (`lines_of_render`). The lines of a tree are its heading and, further
in, the blocks of its fields. A block is a line and what is further in, so the lines tell the
kind of the root and the block of every field (`dumpLines_inj`), whatever the names and operators
are, and by induction the tree. Only spans are not listed.
-/

namespace Ember

/-! ## Numbers -/

/-- A numeral has digits only. -/
theorem notMem_repr {c : Char} (hc : c.isDigit = false) (n : Nat) : c ∉ n.repr.toList := by
  rw [Nat.toList_repr]
  intro hmem
  rw [Nat.isDigit_of_mem_toDigits (by decide) (by decide) hmem] at hc
  cases hc

/-- An integer is written on one line. -/
theorem newline_notMem_toString (value : Int) : '\n' ∉ (toString value).toList := by
  cases value with
  | ofNat n => exact notMem_repr (by decide) n
  | negSucc n =>
    change '\n' ∉ ("-" ++ (n + 1).repr).toList
    rw [String.toList_append, List.mem_append]
    exact not_or.2 ⟨by decide, notMem_repr (by decide) (n + 1)⟩

/-- Numerals tell their numbers. -/
theorem repr_inj {n k : Nat} (h : n.repr = k.repr) : n = k := by
  have hvalue := congrArg (fun s => Nat.ofDigitChars 10 s.toList 0) h
  simpa only [Nat.toList_repr, Nat.ofDigitChars_ten_toDigits] using hvalue

/-- No numeral starts with a minus sign. -/
theorem minus_ne_repr (s : String) (n : Nat) : "-" ++ s ≠ n.repr := by
  intro h
  have hmem : '-' ∈ n.repr.toList := by
    rw [← h, String.toList_append]
    exact List.mem_append_left _ (by decide)
  exact notMem_repr (by decide) n hmem

/-- Integers are told apart by how they are written. -/
theorem toString_inj {a b : Int} : toString a = toString b ↔ a = b := by
  refine ⟨fun h => ?_, congrArg toString⟩
  cases a with
  | ofNat n =>
    cases b with
    | ofNat k => rw [repr_inj h]
    | negSucc k => exact absurd h.symm (minus_ne_repr _ n)
  | negSucc n =>
    cases b with
    | ofNat k => exact absurd h (minus_ne_repr _ k)
    | negSucc k =>
      have hrepr : (n + 1).repr = (k + 1).repr := (String.append_right_inj "-").1 h
      rw [Nat.succ.inj (repr_inj hrepr)]

namespace Node

/-! ## Lines -/

/-- The text stands on one line and does not start with a space. -/
structure IsPlain (text : String) : Prop where
  newline : '\n' ∉ text.toList
  space : text.toList.head? ≠ some ' '

instance (text : String) : Decidable (IsPlain text) :=
  decidable_of_iff ('\n' ∉ text.toList ∧ text.toList.head? ≠ some ' ')
    ⟨fun h => ⟨h.1, h.2⟩, fun h => ⟨h.1, h.2⟩⟩

/-- All lines have plain texts. -/
def ArePlain (ls : List DumpLine) : Prop :=
  ∀ l ∈ ls, IsPlain l.text

/-- Takes a line apart into its indentation and its text. -/
def DumpLine.read (line : List Char) : DumpLine :=
  ⟨(line.takeWhile (· = ' ')).length, String.ofList (line.dropWhile (· = ' '))⟩

theorem toList_render (l : DumpLine) :
    l.render.toList = List.replicate l.indent ' ' ++ l.text.toList := by
  simp [DumpLine.render]

theorem IsPlain.takeWhile_space {text : String} (h : IsPlain text) :
    text.toList.takeWhile (· = ' ') = [] := by
  have hspace := h.space
  cases hchars : text.toList with
  | nil => rfl
  | cons c cs => simp_all

theorem IsPlain.dropWhile_space {text : String} (h : IsPlain text) :
    text.toList.dropWhile (· = ' ') = text.toList := by
  have happend := List.takeWhile_append_dropWhile (p := (· = ' ')) (l := text.toList)
  rwa [h.takeWhile_space, List.nil_append] at happend

/-- A plain line is read back as it was written. -/
theorem read_render {l : DumpLine} (h : IsPlain l.text) : DumpLine.read l.render.toList = l := by
  have hspaces : ∀ c ∈ List.replicate l.indent ' ', decide (c = ' ') = true := by simp
  rw [DumpLine.read, toList_render, List.takeWhile_append_of_pos hspaces,
    List.dropWhile_append_of_pos hspaces, h.takeWhile_space, h.dropWhile_space]
  simp

/-- A plain line is one line. -/
theorem newline_notMem_render {l : DumpLine} (h : IsPlain l.text) : '\n' ∉ l.render.toList := by
  rw [toList_render, List.mem_append]
  rintro (hspace | htext)
  · exact absurd (List.eq_of_mem_replicate hspace) (by decide)
  · exact h.newline htext

/-- **A listing tells its lines**: cut at the breaks, it is read back line by line. -/
theorem lines_of_render {ls : List DumpLine} (h : ArePlain ls) (hne : ls ≠ []) :
    (("\n".intercalate (ls.map DumpLine.render)).toList.splitOn '\n').map DumpLine.read = ls := by
  have hbreaks : ∀ line ∈ (ls.map DumpLine.render).map String.toList, '\n' ∉ line := by
    simp only [List.map_map, List.mem_map, Function.comp_apply, forall_exists_index, and_imp]
    rintro _ l hl rfl
    exact newline_notMem_render (h l hl)
  have hbreak : "\n".toList = ['\n'] := by decide
  rw [String.toList_intercalate, hbreak, List.splitOn_intercalate '\n' hbreaks (by simpa using hne),
    List.map_map, List.map_map]
  calc ls.map ((DumpLine.read ∘ String.toList) ∘ DumpLine.render)
      = ls.map id := List.map_congr_left fun l hl => read_render (h l hl)
    _ = ls := List.map_id ls

/-! ## The lines of a tree are plain -/

/-- A text that a plain line can start with. -/
structure IsLabel (label : String) : Prop where
  plain : IsPlain label
  nonempty : label ≠ ""

instance (label : String) : Decidable (IsLabel label) :=
  decidable_of_iff (IsPlain label ∧ label ≠ "") ⟨fun h => ⟨h.1, h.2⟩, fun h => ⟨h.1, h.2⟩⟩

/-- A label in front of a text that is one line makes it plain. -/
theorem IsLabel.append {label text : String} (h : IsLabel label) (htext : '\n' ∉ text.toList) :
    IsPlain (label ++ text) := by
  have hspace := h.plain.space
  have hne : label.toList ≠ [] := fun hnil => h.nonempty (String.toList_inj.1 hnil)
  obtain ⟨c, cs, hchars⟩ := List.exists_cons_of_ne_nil hne
  constructor
  · rw [String.toList_append, List.mem_append]
    exact not_or.2 ⟨h.plain.newline, htext⟩
  · rw [hchars] at hspace
    rw [String.toList_append, hchars]
    exact hspace

theorem arePlain_append {ls ls' : List DumpLine} (h : ArePlain ls) (h' : ArePlain ls') :
    ArePlain (ls ++ ls') :=
  List.forall_mem_append.2 ⟨h, h'⟩

/-- The lines of a tree are plain if its kind and its fields are. -/
theorem arePlain_dumpNode {kind : String} {fields : List DumpLine} (hkind : IsPlain kind)
    (h : ArePlain fields) : ArePlain (dumpNode kind fields) := by
  refine List.forall_mem_cons.2 ⟨hkind, fun l hl => ?_⟩
  obtain ⟨l, hmem, rfl⟩ := List.mem_map.1 hl
  exact h l hmem

/-- A value is listed on a plain line if it has no break. -/
theorem arePlain_dumpValue {label value : String} (hlabel : IsLabel label)
    (hvalue : '\n' ∉ value.toList) : ArePlain (dumpValue label value) := by
  refine List.forall_mem_singleton.2 ?_
  rw [String.append_assoc]
  refine hlabel.append ?_
  rw [String.toList_append, List.mem_append]
  exact not_or.2 ⟨by decide, hvalue⟩

/-- A labelled tree is listed in plain lines if the tree is. -/
theorem arePlain_dumpTree {label : String} {inner : List DumpLine} (n : Node)
    (hlabel : IsLabel label) (h : ArePlain inner) : ArePlain (dumpTree label n inner) := by
  unfold dumpTree
  split
  · exact arePlain_dumpValue hlabel (by decide)
  · exact arePlain_dumpNode (hlabel.append (by decide)) h

/-- A list between brackets is listed in plain lines if its items are. -/
theorem arePlain_dumpList {label : String} {inner : List DumpLine} (hlabel : IsLabel label)
    (h : ArePlain inner) : ArePlain (dumpList label inner) :=
  arePlain_append (arePlain_dumpNode (hlabel.append (by decide)) h)
    (List.forall_mem_singleton.2 (by decide))

/-- A name is listed in plain lines, since its text is quoted. -/
theorem arePlain_dumpName (n : Name) : ArePlain (dumpName n) :=
  arePlain_dumpNode (by decide) <|
    arePlain_dumpValue (by decide) (Text.newline_notMem_quoted n.text)

theorem arePlain_dumpNames (ps : List Name) : ArePlain (ps.flatMap dumpName) :=
  List.forall_mem_flatMap.2 fun p _ => arePlain_dumpName p

mutual

/-- **Every tree is listed in plain lines.** -/
theorem arePlain_dumpLines : ∀ n : Node, ArePlain n.dumpLines
  | missing => List.forall_mem_singleton.2 (by decide)
  | identifier _ name => arePlain_dumpName ⟨name, none⟩
  | integer _ value => arePlain_dumpNode (by decide) <|
    arePlain_dumpValue (by decide) (newline_notMem_toString value)
  | unary _ operator a => arePlain_dumpNode (by decide) <|
    arePlain_append (arePlain_dumpValue (by decide) (Text.newline_notMem_quoted operator)) <|
      arePlain_dumpTree a (by decide) (arePlain_dumpLines a)
  | binary _ a operator b => arePlain_dumpNode (by decide) <|
    arePlain_append (arePlain_dumpTree a (by decide) (arePlain_dumpLines a)) <|
      arePlain_append (arePlain_dumpValue (by decide) (Text.newline_notMem_quoted operator)) <|
        arePlain_dumpTree b (by decide) (arePlain_dumpLines b)
  | conditional _ c a b => arePlain_dumpNode (by decide) <|
    arePlain_append (arePlain_dumpTree c (by decide) (arePlain_dumpLines c)) <|
      arePlain_append (arePlain_dumpTree a (by decide) (arePlain_dumpLines a)) <|
        arePlain_dumpTree b (by decide) (arePlain_dumpLines b)
  | function _ ps b => arePlain_dumpNode (by decide) <|
    arePlain_append (arePlain_dumpList (by decide) (arePlain_dumpNames ps)) <|
      arePlain_dumpTree b (by decide) (arePlain_dumpLines b)
  | call _ c as => arePlain_dumpNode (by decide) <|
    arePlain_append (arePlain_dumpTree c (by decide) (arePlain_dumpLines c)) <|
      arePlain_dumpList (by decide) (arePlain_dumpItems as)
  | declaration _ x v | assignment _ x v => arePlain_dumpNode (by decide) <|
    arePlain_append (arePlain_dumpNode (by decide) (arePlain_dumpName x)) <|
      arePlain_dumpTree v (by decide) (arePlain_dumpLines v)
  | expression _ e => arePlain_dumpNode (by decide) <|
    arePlain_dumpTree e (by decide) (arePlain_dumpLines e)
  | block _ ns | program _ ns => arePlain_dumpNode (by decide) <|
    arePlain_dumpList (by decide) (arePlain_dumpItems ns)
  | whileLoop _ c b => arePlain_dumpNode (by decide) <|
    arePlain_append (arePlain_dumpTree c (by decide) (arePlain_dumpLines c)) <|
      arePlain_dumpTree b (by decide) (arePlain_dumpLines b)
  | forLoop _ i c p b => arePlain_dumpNode (by decide) <|
    arePlain_append (arePlain_dumpTree i (by decide) (arePlain_dumpLines i)) <|
      arePlain_append (arePlain_dumpTree c (by decide) (arePlain_dumpLines c)) <|
        arePlain_append (arePlain_dumpTree p (by decide) (arePlain_dumpLines p)) <|
          arePlain_dumpTree b (by decide) (arePlain_dumpLines b)

theorem arePlain_dumpItems : ∀ ns : List Node, ArePlain (dumpItems ns)
  | [] => List.forall_mem_nil _
  | n :: ns => arePlain_append (arePlain_dumpLines n) (arePlain_dumpItems ns)

end

/-! ## Blocks -/

/-- A line, with lines further in. -/
def IsBlock (b : List DumpLine) : Prop :=
  ∃ text inner, b = dumpNode text inner

/-- The first line, if there is one, is not further in. -/
def AtMargin (ls : List DumpLine) : Prop :=
  ∀ l ∈ ls.head?, l.indent = 0

/-- Blocks put together start at the margin. -/
theorem atMargin_flatten {bs : List (List DumpLine)} (h : ∀ b ∈ bs, IsBlock b) :
    AtMargin bs.flatten := by
  cases bs with
  | nil => simp [AtMargin]
  | cons b bs =>
    obtain ⟨text, inner, rfl⟩ := h b List.mem_cons_self
    simp [AtMargin, dumpNode]

/-- Lines that are further in end where the next line is not. -/
theorem inward_append_inj {xs ys r r' : List DumpLine} (hr : AtMargin r) (hr' : AtMargin r')
    (h : inward xs ++ r = inward ys ++ r') : xs = ys ∧ r = r' := by
  induction xs generalizing ys with
  | nil =>
    cases ys with
    | nil => exact ⟨rfl, h⟩
    | cons y ys => cases h; exact absurd (hr _ rfl) (Nat.succ_ne_zero _)
  | cons x xs ih =>
    cases ys with
    | nil => cases h; exact absurd (hr' _ rfl) (Nat.succ_ne_zero _)
    | cons y ys =>
      obtain ⟨hline, hrest⟩ := List.cons.inj h
      obtain ⟨hindent, htext⟩ := DumpLine.mk.inj hline
      obtain ⟨rfl, rfl⟩ := ih hrest
      have hxy : x = y := by
        cases x
        cases y
        rw [DumpLine.mk.injEq]
        exact ⟨Nat.add_right_cancel hindent, htext⟩
      exact ⟨by rw [hxy], rfl⟩

/-- The lines of a tree tell its kind and the lines of its fields. -/
@[simp]
theorem dumpNode_inj {kind kind' : String} {fields fields' : List DumpLine} :
    dumpNode kind fields = dumpNode kind' fields' ↔ kind = kind' ∧ fields = fields' := by
  refine ⟨fun h => ?_, by rintro ⟨rfl, rfl⟩; rfl⟩
  obtain ⟨hkind, hfields⟩ := List.cons.inj h
  have hmargin : AtMargin [] := by simp [AtMargin]
  refine ⟨(DumpLine.mk.inj hkind).2, ?_⟩
  exact (inward_append_inj hmargin hmargin (congrArg (· ++ []) hfields)).1

/-- Blocks one below the other are told apart. -/
theorem flatten_inj {xs ys : List (List DumpLine)} (hx : ∀ b ∈ xs, IsBlock b)
    (hy : ∀ b ∈ ys, IsBlock b) (h : xs.flatten = ys.flatten) : xs = ys := by
  induction xs generalizing ys with
  | nil =>
    cases ys with
    | nil => rfl
    | cons y ys =>
      obtain ⟨text, inner, rfl⟩ := hy y List.mem_cons_self
      simp [dumpNode] at h
  | cons x xs ih =>
    obtain ⟨hxhead, hxtail⟩ := List.forall_mem_cons.1 hx
    obtain ⟨text, inner, rfl⟩ := hxhead
    cases ys with
    | nil => simp [dumpNode] at h
    | cons y ys =>
      obtain ⟨hyhead, hytail⟩ := List.forall_mem_cons.1 hy
      obtain ⟨text', inner', rfl⟩ := hyhead
      obtain ⟨hline, hrest⟩ := List.cons.inj h
      obtain ⟨hinner, hflatten⟩ :=
        inward_append_inj (atMargin_flatten hxtail) (atMargin_flatten hytail) hrest
      rw [(DumpLine.mk.inj hline).2, hinner, ih hxtail hytail hflatten]

/-- So are the blocks of the members of a list. -/
theorem flatMap_inj {α : Type} {f : α → List DumpLine} (hf : ∀ a, IsBlock (f a)) {xs ys : List α} :
    xs.flatMap f = ys.flatMap f ↔ xs.map f = ys.map f := by
  have hblocks (l : List α) : ∀ b ∈ l.map f, IsBlock b := List.forall_mem_map.2 fun a _ => hf a
  rw [List.flatMap_def, List.flatMap_def]
  exact ⟨flatten_inj (hblocks xs) (hblocks ys), congrArg List.flatten⟩

/-! ## Headings and fields -/

/-- The first line of a tree. -/
def heading : Node → String
  | missing => "None"
  | n => n.kindName

/-- A field that holds a tree. -/
def dumpField (label : String) (n : Node) : List DumpLine :=
  dumpTree label n n.dumpLines

/-- A field that holds a list: the line in front, with the lines of the list, and the line
behind. -/
def dumpBrackets (label : String) (inner : List DumpLine) : List (List DumpLine) :=
  [dumpNode (label ++ ": [") inner, dumpNode "]" []]

/-- The blocks of the fields of a tree. -/
def blocks : Node → List (List DumpLine)
  | missing => []
  | identifier _ name => [dumpValue "name" (Text.quoted name)]
  | integer _ value => [dumpValue "value" (toString value)]
  | unary _ operator operand =>
    [dumpValue "operator" (Text.quoted operator), dumpField "operand" operand]
  | binary _ left operator right =>
    [dumpField "left" left, dumpValue "operator" (Text.quoted operator), dumpField "right" right]
  | conditional _ condition consequence alternative =>
    [dumpField "condition" condition, dumpField "consequence" consequence,
      dumpField "alternative" alternative]
  | function _ parameters body =>
    dumpBrackets "parameters" (parameters.flatMap dumpName) ++ [dumpField "body" body]
  | call _ callee arguments =>
    dumpField "callee" callee :: dumpBrackets "arguments" (dumpItems arguments)
  | declaration _ name value | assignment _ name value =>
    [dumpNode "name:" (dumpName name), dumpField "value" value]
  | expression _ e => [dumpField "expression" e]
  | block _ statements | program _ statements =>
    dumpBrackets "statements" (dumpItems statements)
  | whileLoop _ condition body => [dumpField "condition" condition, dumpField "body" body]
  | forLoop _ init condition post body =>
    [dumpField "init" init, dumpField "condition" condition, dumpField "post" post,
      dumpField "body" body]

/-- A list is listed as three blocks, its brackets and its items. -/
theorem flatten_dumpBrackets (label : String) (inner : List DumpLine) :
    (dumpBrackets label inner).flatten = dumpList label inner := by
  simp [dumpBrackets, dumpNode, dumpList, inward]

/-- The lines of a tree are its heading and, further in, the blocks of its fields. -/
theorem dumpLines_eq (n : Node) : n.dumpLines = dumpNode n.heading n.blocks.flatten := by
  cases n <;>
    simp [dumpLines, heading, kindName, blocks, dumpField, flatten_dumpBrackets] <;> rfl

theorem dumpLines_ne_nil (n : Node) : n.dumpLines ≠ [] := by
  rw [dumpLines_eq]
  exact List.cons_ne_nil _ _

theorem isBlock_dumpNode (kind : String) (fields : List DumpLine) :
    IsBlock (dumpNode kind fields) :=
  ⟨kind, fields, rfl⟩

theorem isBlock_dumpValue (label value : String) : IsBlock (dumpValue label value) :=
  ⟨_, [], rfl⟩

/-- A field is one block, its label with what is further in. -/
theorem isBlock_dumpField (label : String) (n : Node) : IsBlock (dumpField label n) := by
  unfold dumpField dumpTree
  split
  · exact isBlock_dumpValue label "None"
  · exact isBlock_dumpNode (label ++ ":") n.dumpLines

/-- What a tree is listed as, piece by piece, are blocks. -/
theorem isBlock_of_mem_blocks (n : Node) : ∀ b ∈ n.blocks, IsBlock b := by
  cases n <;>
    simp [blocks, dumpBrackets, isBlock_dumpNode, isBlock_dumpValue, isBlock_dumpField]

variable {m n : Node}

/-- Trees with the same lines have the same heading and the same fields. -/
theorem dumpLines_inj :
    m.dumpLines = n.dumpLines ↔ m.heading = n.heading ∧ m.blocks = n.blocks := by
  rw [dumpLines_eq m, dumpLines_eq n, dumpNode_inj]
  refine and_congr_right' ⟨fun h => ?_, congrArg List.flatten⟩
  exact flatten_inj (isBlock_of_mem_blocks m) (isBlock_of_mem_blocks n) h

/-- Under one label the line of a value tells the value. -/
@[simp]
theorem dumpValue_inj {label value value' : String} :
    dumpValue label value = dumpValue label value' ↔ value = value' := by
  simp [dumpValue, String.append_assoc]

/-- There is one missing tree. -/
theorem eq_missing_of_isMissing (h : n.isMissing = true) : n = missing := by
  cases n with
  | missing => rfl
  | _ => cases h

/-- The lines tell whether a tree is missing. -/
theorem isMissing_of_dumpLines (h : m.dumpLines = n.dumpLines) : m.isMissing = n.isMissing := by
  have hheading (k : Node) : k.isMissing = true ↔ k.heading = "None" := by
    cases k <;> simp [isMissing, heading, kindName]
  rw [Bool.eq_iff_iff, hheading, hheading, (dumpLines_inj.1 h).1]

/-- A field tells the lines of its tree, and whether the tree is missing. -/
@[simp]
theorem dumpField_inj {label : String} :
    dumpField label m = dumpField label n ↔ m.dumpLines = n.dumpLines := by
  refine ⟨fun h => ?_, fun h => by rw [dumpField, dumpTree, isMissing_of_dumpLines h, h]; rfl⟩
  unfold dumpField dumpTree at h
  split at h
  next hm =>
    split at h
    next hn => rw [eq_missing_of_isMissing hm, eq_missing_of_isMissing hn]
    next => simp [dumpValue, String.append_assoc] at h
  next =>
    split at h
    next => simp [dumpValue, String.append_assoc] at h
    next => exact (dumpNode_inj.1 h).2

/-! ## Trees from their lines -/

theorem dumpItems_eq (ns : List Node) : dumpItems ns = ns.flatMap dumpLines := by
  induction ns with
  | nil => rfl
  | cons n ns ih => rw [dumpItems, ih, List.flatMap_cons]

/-- The lines of the items tell the lines of each item. -/
@[simp]
theorem dumpItems_inj {ms ns : List Node} :
    dumpItems ms = dumpItems ns ↔ ms.map dumpLines = ns.map dumpLines := by
  rw [dumpItems_eq, dumpItems_eq, flatMap_inj fun n => ⟨_, _, dumpLines_eq n⟩]

/-- The lines of a name tell its text. -/
@[simp]
theorem dumpName_inj {x y : Name} : dumpName x = dumpName y ↔ x.text = y.text := by
  simp [dumpName, Text.quoted_inj]

/-- Names are listed by their texts alone. -/
theorem map_dumpName (ps : List Name) :
    ps.map dumpName = (ps.map Name.text).map fun text => dumpName { text } := by
  rw [List.map_map]
  rfl

/-- The lines of parameters tell their texts. -/
@[simp]
theorem dumpNames_inj {ps qs : List Name} :
    ps.flatMap dumpName = qs.flatMap dumpName ↔ ps.map Name.text = qs.map Name.text := by
  have hblock (x : Name) : IsBlock (dumpName x) := isBlock_dumpNode _ _
  have hinj (s t : String) (h : dumpName { text := s } = dumpName { text := t }) : s = t :=
    dumpName_inj.1 h
  rw [flatMap_inj hblock, map_dumpName, map_dumpName, List.map_inj_right hinj]

theorem map_erase_eq {ps qs : List Name} (h : ps.map Name.text = qs.map Name.text) :
    ps.map (fun p => ({ text := p.text } : Name)) = qs.map fun p => { text := p.text } := by
  have htexts := congrArg (List.map fun text => ({ text } : Name)) h
  rwa [List.map_map, List.map_map] at htexts

mutual

/-- Trees with the same lines are the same up to spans. -/
theorem erase_eq_of_dumpLines : ∀ {m n : Node}, m.dumpLines = n.dumpLines → m.erase = n.erase
  | missing, n, h => by
    obtain ⟨hheading, -⟩ := dumpLines_inj.1 h
    cases n <;> simp only [heading, kindName, String.reduceEq] at hheading
    rfl
  | identifier _ name, n, h => by
    obtain ⟨hheading, hblocks⟩ := dumpLines_inj.1 h
    cases n <;> simp only [heading, kindName, String.reduceEq] at hheading
    simp only [blocks, List.cons.injEq, dumpValue_inj, Text.quoted_inj] at hblocks
    rw [erase, erase, hblocks.1]
  | integer _ value, n, h => by
    obtain ⟨hheading, hblocks⟩ := dumpLines_inj.1 h
    cases n <;> simp only [heading, kindName, String.reduceEq] at hheading
    simp only [blocks, List.cons.injEq, dumpValue_inj, toString_inj] at hblocks
    rw [erase, erase, hblocks.1]
  | unary _ operator a, n, h => by
    obtain ⟨hheading, hblocks⟩ := dumpLines_inj.1 h
    cases n <;> simp only [heading, kindName, String.reduceEq] at hheading
    simp only [blocks, List.cons.injEq, dumpValue_inj, dumpField_inj, Text.quoted_inj] at hblocks
    obtain ⟨hoperator, ha, -⟩ := hblocks
    rw [erase, erase, hoperator, erase_eq_of_dumpLines ha]
  | binary _ a operator b, n, h => by
    obtain ⟨hheading, hblocks⟩ := dumpLines_inj.1 h
    cases n <;> simp only [heading, kindName, String.reduceEq] at hheading
    simp only [blocks, List.cons.injEq, dumpValue_inj, dumpField_inj, Text.quoted_inj] at hblocks
    obtain ⟨ha, hoperator, hb, -⟩ := hblocks
    rw [erase, erase, erase_eq_of_dumpLines ha, hoperator, erase_eq_of_dumpLines hb]
  | conditional _ c a b, n, h => by
    obtain ⟨hheading, hblocks⟩ := dumpLines_inj.1 h
    cases n <;> simp only [heading, kindName, String.reduceEq] at hheading
    simp only [blocks, List.cons.injEq, dumpField_inj] at hblocks
    obtain ⟨hc, ha, hb, -⟩ := hblocks
    rw [erase, erase, erase_eq_of_dumpLines hc, erase_eq_of_dumpLines ha, erase_eq_of_dumpLines hb]
  | function _ ps b, n, h => by
    obtain ⟨hheading, hblocks⟩ := dumpLines_inj.1 h
    cases n <;> simp only [heading, kindName, String.reduceEq] at hheading
    simp only [blocks, dumpBrackets, List.cons_append, List.nil_append, List.cons.injEq,
      dumpNode_inj, dumpNames_inj, dumpField_inj] at hblocks
    obtain ⟨⟨-, hps⟩, -, hb, -⟩ := hblocks
    rw [erase, erase, map_erase_eq hps, erase_eq_of_dumpLines hb]
  | call _ c as, n, h => by
    obtain ⟨hheading, hblocks⟩ := dumpLines_inj.1 h
    cases n <;> simp only [heading, kindName, String.reduceEq] at hheading
    simp only [blocks, dumpBrackets, List.cons.injEq, dumpField_inj, dumpNode_inj,
      dumpItems_inj] at hblocks
    obtain ⟨hc, ⟨-, has⟩, -⟩ := hblocks
    rw [erase, erase, erase_eq_of_dumpLines hc, eraseAll_eq_of_dumpLines has]
  | declaration _ x v, n, h => by
    obtain ⟨hheading, hblocks⟩ := dumpLines_inj.1 h
    cases n <;> simp only [heading, kindName, String.reduceEq] at hheading
    simp only [blocks, List.cons.injEq, dumpNode_inj, dumpName_inj, dumpField_inj] at hblocks
    obtain ⟨⟨-, hx⟩, hv, -⟩ := hblocks
    rw [erase, erase, hx, erase_eq_of_dumpLines hv]
  | assignment _ x v, n, h => by
    obtain ⟨hheading, hblocks⟩ := dumpLines_inj.1 h
    cases n <;> simp only [heading, kindName, String.reduceEq] at hheading
    simp only [blocks, List.cons.injEq, dumpNode_inj, dumpName_inj, dumpField_inj] at hblocks
    obtain ⟨⟨-, hx⟩, hv, -⟩ := hblocks
    rw [erase, erase, hx, erase_eq_of_dumpLines hv]
  | expression _ e, n, h => by
    obtain ⟨hheading, hblocks⟩ := dumpLines_inj.1 h
    cases n <;> simp only [heading, kindName, String.reduceEq] at hheading
    simp only [blocks, List.cons.injEq, dumpField_inj] at hblocks
    rw [erase, erase, erase_eq_of_dumpLines hblocks.1]
  | block _ ns, n, h => by
    obtain ⟨hheading, hblocks⟩ := dumpLines_inj.1 h
    cases n <;> simp only [heading, kindName, String.reduceEq] at hheading
    simp only [blocks, dumpBrackets, List.cons.injEq, dumpNode_inj, dumpItems_inj] at hblocks
    obtain ⟨⟨-, hns⟩, -⟩ := hblocks
    rw [erase, erase, eraseAll_eq_of_dumpLines hns]
  | whileLoop _ c b, n, h => by
    obtain ⟨hheading, hblocks⟩ := dumpLines_inj.1 h
    cases n <;> simp only [heading, kindName, String.reduceEq] at hheading
    simp only [blocks, List.cons.injEq, dumpField_inj] at hblocks
    obtain ⟨hc, hb, -⟩ := hblocks
    rw [erase, erase, erase_eq_of_dumpLines hc, erase_eq_of_dumpLines hb]
  | forLoop _ i c p b, n, h => by
    obtain ⟨hheading, hblocks⟩ := dumpLines_inj.1 h
    cases n <;> simp only [heading, kindName, String.reduceEq] at hheading
    simp only [blocks, List.cons.injEq, dumpField_inj] at hblocks
    obtain ⟨hi, hc, hp, hb, -⟩ := hblocks
    rw [erase, erase, erase_eq_of_dumpLines hi, erase_eq_of_dumpLines hc,
      erase_eq_of_dumpLines hp, erase_eq_of_dumpLines hb]
  | program _ ns, n, h => by
    obtain ⟨hheading, hblocks⟩ := dumpLines_inj.1 h
    cases n <;> simp only [heading, kindName, String.reduceEq] at hheading
    simp only [blocks, dumpBrackets, List.cons.injEq, dumpNode_inj, dumpItems_inj] at hblocks
    obtain ⟨⟨-, hns⟩, -⟩ := hblocks
    rw [erase, erase, eraseAll_eq_of_dumpLines hns]

/-- Trees with the same lines one by one are the same up to spans. -/
theorem eraseAll_eq_of_dumpLines : ∀ {ms ns : List Node},
    ms.map dumpLines = ns.map dumpLines → eraseAll ms = eraseAll ns
  | [], ns, h => by rw [List.map_eq_nil_iff.1 h.symm]
  | m :: ms, ns, h => by
    obtain ⟨n, ns, rfl, hn, hns⟩ := List.map_eq_cons_iff.1 h.symm
    rw [eraseAll, eraseAll, erase_eq_of_dumpLines hn.symm, eraseAll_eq_of_dumpLines hns.symm]

end

theorem flatMap_dumpName_erase (ps : List Name) :
    (ps.map fun p => { text := p.text }).flatMap dumpName = ps.flatMap dumpName :=
  dumpNames_inj.2 (by rw [List.map_map]; rfl)

mutual

/-- Spans are not listed. -/
theorem dumpLines_erase : ∀ n : Node, n.erase.dumpLines = n.dumpLines
  | missing => rfl
  | identifier .. => rfl
  | integer .. => rfl
  | unary _ _ a => by simp only [erase, dumpLines, dumpTree, isMissing_erase, dumpLines_erase a]
  | binary _ a _ b => by
    simp only [erase, dumpLines, dumpTree, isMissing_erase, dumpLines_erase a, dumpLines_erase b]
  | conditional _ c a b => by
    simp only [erase, dumpLines, dumpTree, isMissing_erase, dumpLines_erase c, dumpLines_erase a,
      dumpLines_erase b]
  | function _ ps b => by
    simp only [erase, dumpLines, dumpTree, isMissing_erase, flatMap_dumpName_erase,
      dumpLines_erase b]
  | call _ c as => by
    simp only [erase, dumpLines, dumpTree, isMissing_erase, dumpLines_erase c, dumpItems_erase as]
  | declaration _ _ v => by
    simp only [erase, dumpLines, dumpName, dumpTree, isMissing_erase, dumpLines_erase v]
  | assignment _ _ v => by
    simp only [erase, dumpLines, dumpName, dumpTree, isMissing_erase, dumpLines_erase v]
  | expression _ e => by simp only [erase, dumpLines, dumpTree, isMissing_erase, dumpLines_erase e]
  | block _ ns => by simp only [erase, dumpLines, dumpItems_erase ns]
  | whileLoop _ c b => by
    simp only [erase, dumpLines, dumpTree, isMissing_erase, dumpLines_erase c, dumpLines_erase b]
  | forLoop _ i c p b => by
    simp only [erase, dumpLines, dumpTree, isMissing_erase, dumpLines_erase i, dumpLines_erase c,
      dumpLines_erase p, dumpLines_erase b]
  | program _ ns => by simp only [erase, dumpLines, dumpItems_erase ns]

/-- Items are listed without their spans. -/
theorem dumpItems_erase : ∀ ns : List Node, dumpItems (eraseAll ns) = dumpItems ns
  | [] => rfl
  | n :: ns => by rw [eraseAll, dumpItems, dumpItems, dumpLines_erase n, dumpItems_erase ns]

end

/-- **A listing tells the tree.** Two trees, whole or with parts missing, and with whatever names
and operators, are listed alike when and only when they are the same up to spans. -/
theorem dump_eq_iff (m n : Node) : m.dump = n.dump ↔ m.erase = n.erase := by
  constructor
  · intro h
    have hm := lines_of_render (arePlain_dumpLines m) (dumpLines_ne_nil m)
    have hn := lines_of_render (arePlain_dumpLines n) (dumpLines_ne_nil n)
    unfold dump at h
    rw [h] at hm
    exact erase_eq_of_dumpLines (hm.symm.trans hn)
  · intro h
    rw [dump, dump, ← dumpLines_erase m, ← dumpLines_erase n, h]

end Node

end Ember

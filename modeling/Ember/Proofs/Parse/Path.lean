import Ember.Proofs.Parse.Walk

/-!
# Paths of a parse

A step of a parse starts at one window and ends at another, and it may give the
parse up there. What holds of doing nothing, of moving on by a token, of noting
a problem and of giving up, and carries over from one step to the next, holds of
every rule of the grammar: `parsePhrase_along`. So a fact about all parses is
proved once, for the moves, and not for each rule.

`Window.Leads` is the first such fact: tokens are only left behind and problems only
added, none of them about the nesting, and a literal is refused where it stands.
-/

namespace Ember

/-- What a relation has to satisfy to hold along every path of a parse. The
second argument says whether the parse was given up. -/
class Window.Path (R : Window → Option ParseStop → Window → Prop) : Prop where
  stay (w : Window) : R w none w
  trans {u v w : Window} {stop : Option ParseStop} : R u none v → R v stop w → R u stop w
  advance (w : Window) : R w none w.advance
  /-- Problems are found at the current token and at the next one. That the nesting is too
  deep is for the loop over all statements to say. -/
  note (w : Window) (cause : SyntaxCause) (token quoted : Token) : cause ≠ .tooDeep →
    token = w.current ∨ token = w.next → R w none (w.note cause token quoted)
  tooDeep (w : Window) : R w (some .tooDeep) w
  refuse (w : Window) :
    w.current.kind = .integer → maxDigits < w.current.text.length →
      R w (some (.literalTooLong w.current.text.length)) w

namespace Parser

variable {α β : Type}

/-- The relation holds from a window to the one that the step comes to. -/
def RunsAlong (R : Window → Option ParseStop → Window → Prop) (x : Parser α) (w : Window) : Prop :=
  R w (x.stop? w) (x.after w)

/-- The relation holds so from every window. -/
class Along (R : Window → Option ParseStop → Window → Prop) (x : Parser α) : Prop where
  run (w : Window) : RunsAlong R x w

variable {R : Window → Option ParseStop → Window → Prop}

/-- What holds to where a step comes, and from there to where the next one does, holds to there. -/
theorem path_andThen [hR : Window.Path R] {w : Window} {r : Run α}
    {f : α → Parser β} (h : R w r.stop? r.window)
    (hf : ∀ a w', R w' (Run.stop? (f a w')) (Run.window (f a w'))) :
    R w (Run.stop? (r.andThen f)) (Run.window (r.andThen f)) := by
  cases r with
  | ok a w' => exact hR.trans h (hf a w')
  | error stop w' => exact h

/-- The judgement that the relation holds to where the first parse comes to, at whatever point. -/
def Walk.along (R : Window → Option ParseStop → Window → Prop) [hR : Window.Path R] : Walk where
  Holds _ w _ r _ := R w r.stop? r.window
  Stands _ := True
  stands _ := trivial
  weaken _ h := h
  pure _ w _ _ := hR.stay w
  bind h hf := path_andThen h hf
  advance _ h := hR.trans (hR.advance _) h
  note_current _ hcause h := hR.trans (hR.note _ _ _ _ hcause (.inl rfl)) h
  note_next hcause h := hR.trans (hR.note _ _ _ _ hcause (.inr rfl)) h
  refuse hkind hlong := hR.refuse _ hkind hlong

namespace Along

open Window.Path

variable [Window.Path R]

/-! ## Steps along a path -/

instance looks (x : Parser α) [hx : Looks x] : Along R x where
  run w := by
    obtain ⟨a, ha⟩ := hx.run w
    unfold RunsAlong stop? after
    rw [ha]
    exact stay w

instance advance : Along R advance := ⟨Window.Path.advance⟩

instance bind (x : Parser α) (f : α → Parser β) [hx : Along R x] [hf : ∀ a, Along R (f a)] :
    Along R (x >>= f) where
  run w := by
    unfold RunsAlong stop? after
    rw [bind_eq_andThen]
    exact path_andThen (hx.run w) fun a => (hf a).run

instance ite (c : Prop) [Decidable c] (x y : Parser α) [Along R x] [Along R y] :
    Along R (if c then x else y) := by
  split <;> assumption

instance expect (kind : Kind) : Along R (expect kind) where
  run w := by
    unfold RunsAlong stop? after
    rw [expect_apply]
    by_cases h : w.next.kind = kind
    · rw [if_pos h]
      exact Window.Path.advance w
    · rw [if_neg h]
      exact Window.Path.note _ _ _ _ (unexpected_ne_tooDeep kind w.next) (.inr rfl)

instance past (kind : Kind) (more : Parser Node) [Along R more] : Along R (past kind more) := by
  unfold Parser.past
  infer_instance

/-! ### The rules -/

/-- A step that is judged so at every window, at some point, is a step along the relation. -/
theorem of_walk {x : Parser α} {point : Point} (h : ∀ w, (Walk.along R).At point w x x) :
    Along R x :=
  ⟨h⟩

instance moreParameters (found : Array Name) (n : Nat) : Along R (moreParameters found n) :=
  of_walk fun _ => Walk.moreParameters found n

instance parameters : Along R parameters :=
  of_walk fun _ => Walk.parameters

instance terminator : Along R terminator :=
  of_walk fun w => (Walk.terminator : (Walk.along R).At .begun w _ _)

section

variable {self : Phrase → Parser Node} [hself : ∀ phrase, Along R (self phrase)]

theorem inside : (Walk.along R).Inside self self :=
  ⟨fun above => (hself (.expression above)).run, fun phrase w _ => (hself phrase).run w⟩

instance blockStatements (opening : Token) (found : Array Node) (n : Nat) :
    Along R (blockStatements self opening found n) :=
  of_walk fun _ => Walk.blockStatements inside opening found n

instance block : Along R (block self) :=
  of_walk fun _ => Walk.block inside

instance conditionalRest (first : Token) (condition consequence : Node) :
    Along R (conditionalRest self first condition consequence) :=
  of_walk fun _ => Walk.conditionalRest inside first condition consequence

instance conditional : Along R (conditional self) :=
  of_walk fun _ => Walk.conditional inside

instance function : Along R (function self) :=
  of_walk fun _ => Walk.function inside

instance signed : Along R (signed self) :=
  of_walk fun _ => Walk.signed inside trivial

instance grouped : Along R (grouped self) :=
  of_walk fun _ => Walk.grouped inside trivial

instance moreArguments (found : Array Node) (n : Nat) : Along R (moreArguments self found n) :=
  of_walk fun _ => Walk.moreArguments inside found n

instance arguments : Along R (arguments self) :=
  of_walk fun _ => Walk.arguments inside

instance call (callee : Node) : Along R (call self callee) :=
  of_walk fun _ => Walk.call inside callee

instance infixed (left : Node) : Along R (infixed self left) :=
  of_walk fun _ => Walk.infixed inside left

instance operand : Along R (operand self) :=
  of_walk fun _ => Walk.operand inside

instance operators (above : Nat) (left : Node) (n : Nat) :
    Along R (operators self above left n) :=
  of_walk fun w => (Walk.operators inside fun _ => .inr trivial : (Walk.along R).At .begun w _ _)

instance expression (above : Nat) : Along R (expression self above) :=
  of_walk fun _ => Walk.expression inside above

instance declaration (finish : Parser Unit) [hfinish : Along R finish] :
    Along R (declaration self finish) :=
  of_walk fun _ => Walk.declaration inside hfinish.run

instance assignment (finish : Parser Unit) [hfinish : Along R finish] :
    Along R (assignment self finish) :=
  of_walk fun _ => Walk.assignment inside hfinish.run

instance expressionStatement : Along R (expressionStatement self) :=
  of_walk fun _ => Walk.expressionStatement inside

instance whileLoop : Along R (whileLoop self) :=
  of_walk fun _ => Walk.whileLoop inside

instance clause (name : String) : Along R (clause self name) :=
  of_walk fun _ => Walk.clause inside name

instance forBody (first : Token) (init condition post : Node) :
    Along R (forBody self first init condition post) :=
  of_walk fun _ => Walk.forBody inside first init condition post

instance forRest (first : Token) (init : Node) : Along R (forRest self first init) :=
  of_walk fun _ => Walk.forRest inside first init

instance forLoop : Along R (forLoop self) :=
  of_walk fun _ => Walk.forLoop inside

instance statement : Along R (statement self) :=
  of_walk fun _ => Walk.statement inside

end

end Along

end Parser

/-- **What holds of the moves holds of every rule**, however deep it nests. -/
instance parsePhrase_along {R : Window → Option ParseStop → Window → Prop} [hR : Window.Path R]
    (depth : Nat) (phrase : Phrase) : Parser.Along R (parsePhrase depth phrase) := by
  have hshort : ∀ depth phrase w, parsePhrase depth phrase w = .error .tooDeep w →
      (Parser.Walk.along R).At .opening w (parsePhrase depth phrase)
        (parsePhrase depth phrase) := by
    intro depth phrase w hdeep
    change R w (Parser.Run.stop? (parsePhrase depth phrase w)) (Parser.Run.window _)
    rw [hdeep]
    exact hR.tooDeep w
  exact .of_walk (Parser.Walk.phrase 0 (fun _ => trivial) hshort depth phrase)

namespace Window

/-- What a parse at a window may come to. -/
structure Leads (w : Window) (stop : Option ParseStop) (w' : Window) : Prop where
  tokens : w'.tokens <:+ w.tokens
  problems : w.problems.toList <+: w'.problems.toList
  causes : ∀ p ∈ w'.problems, p ∈ w.problems ∨ p.cause ≠ .tooDeep
  refused : ∀ n, stop = some (.literalTooLong n) →
    w'.current.kind = .integer ∧ w'.current.text.length = n ∧ maxDigits < n

/-- What was found on the way to `v` stays found, also where that way ended at `v`. -/
theorem Leads.trans {u v w : Window} {stop stop' : Option ParseStop} (h : u.Leads stop v)
    (h' : v.Leads stop' w) : u.Leads stop' w where
  tokens := h'.tokens.trans h.tokens
  problems := h.problems.trans h'.problems
  causes p hp := (h'.causes p hp).elim (h.causes p) .inr
  refused := h'.refused

theorem Leads.refl (w : Window) : w.Leads none w :=
  ⟨List.suffix_refl _, List.prefix_refl _, fun _ => .inl, by simp⟩

instance : Path Leads where
  stay := Leads.refl
  trans := Leads.trans
  advance w := by
    refine ⟨w.advance_tokens_suffix, ?_, ?_, by simp⟩
    · simp only [advance_problems, List.prefix_refl]
    · rw [advance_problems]
      exact fun _ => .inl
  note w cause token quoted hc _ := by
    refine ⟨List.suffix_refl _, ?_, fun p hp => ?_, by simp⟩
    · simp only [note, Array.toList_push, List.prefix_append]
    · rcases Array.mem_push.1 hp with hp | rfl
      · exact .inl hp
      · exact .inr hc
  tooDeep w := ⟨List.suffix_refl _, List.prefix_refl _, fun _ => .inl, by simp⟩
  refuse w hk hl := by
    refine ⟨List.suffix_refl _, List.prefix_refl _, fun _ => .inl, fun n hn => ?_⟩
    obtain rfl : w.current.text.length = n := by simpa using hn
    exact ⟨hk, rfl, hl⟩

end Window

end Ember

import Ember.Parse

/-!
# Moves of a parse

What the steps do that all rules are made of. A step starts at one window and ends at another,
or it gives the parse up there (`Parser.Run`). It reads tokens, moves on by one, notes a problem,
or gives up; `bind_apply` puts one step behind another. The end of the text, which stands behind
everything else (`Window.Ended`), keeps a parse from running out of tokens.
-/

namespace Ember

/-! ## Windows onto a whole text -/

/-- The kind of the first of some tokens, `k` when there is none. -/
def firstKind (ts : List Token) (k : Kind) : Kind :=
  match ts with
  | [] => k
  | t :: _ => t.kind

@[simp] theorem firstKind_nil (k : Kind) : firstKind [] k = k := rfl

@[simp]
theorem firstKind_cons (t : Token) (ts : List Token) (k : Kind) :
    firstKind (t :: ts) k = t.kind := rfl

/-- What stands behind some tokens begins with them, or with what follows. -/
theorem firstKind_append (ts us : List Token) (k : Kind) :
    firstKind (ts ++ us) k = firstKind ts (firstKind us k) := by
  cases ts <;> rfl

namespace Window

/-- The tokens from the current one on. -/
def tokens (w : Window) : List Token :=
  w.current :: w.ahead

/-- A move takes tokens away from the front only. -/
theorem advance_tokens_suffix (w : Window) : w.advance.tokens <:+ w.tokens := by
  obtain ⟨current, ahead, problems⟩ := w
  cases ahead with
  | nil => exact List.suffix_refl _
  | cons t ts => exact List.suffix_cons _ _

theorem advance_current (w : Window) : w.advance.current = w.next := by
  unfold advance next
  cases w.ahead <;> rfl

/-- After a move one token less is ahead, if any was. -/
theorem advance_ahead_length (w : Window) : w.advance.ahead.length = w.ahead.length - 1 := by
  obtain ⟨current, ahead, problems⟩ := w
  cases ahead <;> rfl

@[simp]
theorem advance_problems (w : Window) : w.advance.problems = w.problems := by
  unfold advance
  split <;> rfl

/-- The last token of the window is the end of the text. -/
def Ended (w : Window) : Prop :=
  ∃ last, [last] <:+ w.tokens ∧ last.kind = .endOfText

variable {w w' : Window}

/-- A window further on still ends with the end of the text. -/
theorem Ended.of_suffix (hw : w.Ended) (h : w'.tokens <:+ w.tokens) : w'.Ended := by
  obtain ⟨last, hl, hk⟩ := hw
  exact ⟨last, List.suffix_of_suffix_length_le hl h (by simp [tokens]), hk⟩

theorem Ended.advance (hw : w.Ended) : w.advance.Ended :=
  hw.of_suffix w.advance_tokens_suffix

/-- Where nothing is ahead the current token is the end of the text. -/
theorem Ended.current_kind (hw : w.Ended) (h : w.ahead = []) : w.current.kind = .endOfText := by
  obtain ⟨last, hl, hk⟩ := hw
  have he : [last] = [w.current] := by
    rw [tokens, h] at hl
    exact hl.eq_of_length rfl
  rw [← List.singleton_inj.1 he, hk]

/-- What is ahead are the tokens of the window after a move. -/
theorem tokens_advance (h : w.ahead ≠ []) :
    w.ahead = w.advance.tokens ∧ w.advance.current = w.next := by
  refine ⟨?_, w.advance_current⟩
  obtain ⟨current, ahead, problems⟩ := w
  cases ahead with
  | nil => exact absurd rfl h
  | cons t rest => rfl

/-- In front of a token that is not the end there is another one. -/
theorem Ended.ahead_ne_nil (hw : w.Ended) (h : w.current.kind ≠ .endOfText) : w.ahead ≠ [] :=
  fun he => h (hw.current_kind he)

/-- Before the end of the text a move is over one of the tokens ahead. -/
theorem Ended.ahead_eq (hw : w.Ended) (h : w.current.kind ≠ .endOfText) :
    w.ahead = w.advance.tokens :=
  (tokens_advance (hw.ahead_ne_nil h)).1

/-- Behind the last token the end of the text is seen again. -/
theorem Ended.next_kind (hw : w.Ended) : w.next.kind = firstKind w.ahead .endOfText := by
  unfold Window.next
  cases ha : w.ahead with
  | nil => exact hw.current_kind ha
  | cons t rest => rfl

/-- The last tokens of a window have the end of the text among them. -/
theorem Ended.exists_end {ts : List Token} (hw : w.Ended) (hts : ts <:+ w.tokens)
    (hne : ts ≠ []) : ∃ t ∈ ts, t.kind = .endOfText := by
  obtain ⟨last, hl, hlast⟩ := hw
  have hsuffix : [last] <:+ ts :=
    List.suffix_of_suffix_length_le hl hts (List.length_pos_iff.2 hne)
  exact ⟨last, hsuffix.subset (List.mem_singleton_self last), hlast⟩

/-- Behind tokens that are not the end of the text there is another one. -/
theorem Ended.ahead_ne_nil_of_append {ts : List Token} (hw : w.Ended) (hne : w.ahead ≠ [])
    (ha : w.ahead = ts ++ w'.ahead) (hts : ∀ t ∈ ts, t.kind ≠ .endOfText) : w'.ahead ≠ [] := by
  intro hnil
  rw [hnil, List.append_nil] at ha
  obtain ⟨last, hmem, hlast⟩ := hw.exists_end (List.suffix_cons w.current w.ahead) hne
  exact hts last (ha ▸ hmem) hlast

/-- A next token that is not the end is the current one after moving on. -/
theorem Ended.next_of {k : Kind} (hw : w.Ended) (h : w.next.kind = k) (hk : k ≠ .endOfText) :
    w.ahead = w.advance.tokens ∧ w.advance.current.kind = k := by
  have hne : w.ahead ≠ [] := fun he => hk (by rw [← h, hw.next_kind, he, firstKind_nil])
  obtain ⟨ha, hc⟩ := tokens_advance hne
  exact ⟨ha, by rw [hc, h]⟩

/-- The kind of the token behind the current one. -/
def follow (w : Window) : Kind :=
  firstKind w.ahead .endOfText

/-- What follows a window is what its next token is. -/
theorem Ended.follow_eq {k : Kind} (hw : w.Ended) (h : w.next.kind = k) : w.follow = k := by
  rw [follow, ← hw.next_kind, h]

end Window

namespace Parser

variable {α β : Type}

/-! ## What a step comes to -/

/-- What a step came to: a result and a window, or why the parse was given up and where. -/
abbrev Run (α : Type) : Type :=
  EStateM.Result ParseStop Window α

namespace Run

/-- Where the step came to. -/
def window : Run α → Window
  | .ok _ w | .error _ w => w

/-- Why the parse was given up, if it was. -/
def stop? : Run α → Option ParseStop
  | .ok _ _ => none
  | .error stop _ => some stop

/-- What another step behind this one comes to. -/
def andThen (r : Run α) (f : α → Parser β) : Run β :=
  match r with
  | .ok a w => f a w
  | .error stop w => .error stop w

end Run

/-- Where a step comes to from a window. -/
def after (x : Parser α) (w : Window) : Window :=
  Run.window (x w)

/-- Why a step gives the parse up, if it does. -/
def stop? (x : Parser α) (w : Window) : Option ParseStop :=
  Run.stop? (x w)

theorem after_of_ok {x : Parser α} {a : α} {w w' : Window} (h : x w = .ok a w') :
    x.after w = w' := by
  rw [after, h]
  rfl

theorem after_of_error {x : Parser α} {stop : ParseStop} {w w' : Window}
    (h : x w = .error stop w') : x.after w = w' := by
  rw [after, h]
  rfl

/-- A step with another one behind it stops where the first one stops. -/
theorem bind_apply (x : Parser α) (f : α → Parser β) (w : Window) :
    (x >>= f) w = match x w with
      | .ok a w' => f a w'
      | .error stop w' => .error stop w' := by
  change EStateM.bind x f w = _
  unfold EStateM.bind
  cases x w <;> rfl

/-- A step with another one behind it is the run of the first one carried on. -/
theorem bind_eq_andThen (x : Parser α) (f : α → Parser β) (w : Window) :
    (x >>= f) w = Run.andThen (x w) f :=
  bind_apply x f w

/-! ## The moves -/

@[simp] theorem pure_apply (a : α) (w : Window) : (pure a : Parser α) w = .ok a w := rfl
@[simp] theorem current_apply (w : Window) : current w = .ok w.current w := rfl
@[simp] theorem next_apply (w : Window) : next w = .ok w.next w := rfl
@[simp] theorem advance_apply (w : Window) : advance w = .ok () w.advance := rfl
@[simp] theorem remaining_apply (w : Window) : remaining w = .ok w.ahead.length w := rfl

@[simp]
theorem note_apply (cause : SyntaxCause) (token : Token) (w : Window) :
    note cause token w = .ok () (w.note cause token token) := rfl

@[simp]
theorem modify_apply (f : Window → Window) (w : Window) :
    (modify f : Parser Unit) w = .ok () (f w) := rfl

@[simp]
theorem throw_apply (stop : ParseStop) (w : Window) :
    (throw stop : Parser α) w = .error stop w := rfl

/-- The problem of a next token that is not of the wanted kind. -/
def unexpected (kind : Kind) (token : Token) : SyntaxCause :=
  if token.kind = .endOfText then .unexpectedEnd kind.name
  else .unexpectedToken kind.name token.kind.name

/-- A missing token is no problem of the nesting. -/
theorem unexpected_ne_tooDeep (kind : Kind) (token : Token) :
    unexpected kind token ≠ .tooDeep := by
  unfold unexpected
  split <;> nofun

/-- A token that has to be there is passed, or the next one is noted in its place. -/
theorem expect_apply (kind : Kind) (w : Window) :
    expect kind w = if w.next.kind = kind then .ok true w.advance
      else .ok false (w.note (unexpected kind w.next) w.next w.next) := by
  unfold expect unexpected
  simp only [bind_apply, next_apply]
  by_cases h : w.next.kind = kind
  · simp only [h, if_true, bind_apply, advance_apply, pure_apply]
  · by_cases he : w.next.kind = .endOfText
    · simp only [if_neg h, if_pos he, bind_apply, note_apply, pure_apply]
    · simp only [if_neg h, if_neg he, bind_apply, note_apply, pure_apply]

/-- Without the token that has to be there nothing behind it is read. -/
theorem past_apply (kind : Kind) (more : Parser Node) (w : Window) :
    past kind more w = if w.next.kind = kind then more w.advance
      else .ok .missing (w.note (unexpected kind w.next) w.next w.next) := by
  rw [past, bind_apply, expect_apply]
  by_cases h : w.next.kind = kind <;> simp [h]

/-- The step leaves the window as it is. -/
class Looks (x : Parser α) : Prop where
  run (w : Window) : ∃ a, x w = .ok a w

namespace Looks

instance pure (a : α) : Looks (Pure.pure a) := ⟨fun _ => ⟨a, rfl⟩⟩
instance current : Looks current := ⟨fun _ => ⟨_, rfl⟩⟩
instance next : Looks next := ⟨fun _ => ⟨_, rfl⟩⟩
instance nextIs (kind : Kind) : Looks (nextIs kind) := ⟨fun _ => ⟨_, rfl⟩⟩
instance remaining : Looks remaining := ⟨fun _ => ⟨_, rfl⟩⟩
instance spanFrom (first : Token) : Looks (spanFrom first) := ⟨fun _ => ⟨_, rfl⟩⟩
instance spanOver (n : Node) : Looks (spanOver n) := ⟨fun _ => ⟨_, rfl⟩⟩

end Looks

end Parser

end Ember

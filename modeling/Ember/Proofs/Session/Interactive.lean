import Ember.Proofs.Session.Ends
import Ember.Proofs.Settings.Loaded
import Ember.Repl

/-!
# How interactive sessions end

A session answers one line after the other (`Repl.Answers`) until no line is left, a line is the
exit keyword, or a line stops it (`Repl.Ending`). With loaded settings that can be put in force
this is all that a session ever does, on any stack (`Repl.run_ends_iff`). Neither problems of the
text nor failures stop it: a line that does loops for ever, has an integer literal or a value of
too many digits, or has a function for its value that takes more stack to print than there is.
A value of too many digits does stop one (`Repl.long_value_stops`), and so does a function
(`Repl.deep_function_stops`).
-/

namespace Ember

namespace Repl

variable {stack : Stack} {s : Settings} {h h' : Heap} {line text out : String}
  {lines rest : List String} {fault : Fault}

/-! ## What a line is to a session -/

/-- The line is blank. -/
def Blank (line : String) : Prop :=
  Text.trim line = ""

/-- The line is the exit keyword, the blanks around it and the case of letters aside. -/
def Leaves (s : Settings) (line : String) : Prop :=
  ¬ Blank line ∧ Text.lowerCase (Text.trim line) = Text.lowerCase s.exitKeyword

/-- The line is there to be evaluated. -/
def Asks (s : Settings) (line : String) : Prop :=
  ¬ Blank line ∧ ¬ Leaves s line

/-- The source that a line is. -/
def lineSource (line : String) : Source :=
  { text := Text.trim line }

/-- The evaluation of a line, in which a loop may make so many rounds. -/
def evaluateLine (s : Settings) (h : Heap) (line : String) (rounds : Nat) :
    Except Fault Heap.Evaluated × Heap :=
  h.evaluate Heap.globalFrame (lineSource line) (limits s) rounds

/-- The evaluation of a line comes to this end, if its loops may make enough rounds. -/
def EndsWith (s : Settings) (h : Heap) (line : String) (p : Parsed) (o : Outcome)
    (h' : Heap) : Prop :=
  ∃ least, ∀ rounds ≥ least, evaluateLine s h line rounds = (.ok ⟨p, .ok o⟩, h')

/-- A line is answered with a text, and leaves a heap behind: a blank one with nothing, another
one with the report of what became of it. -/
inductive Answer (stack : Stack) (s : Settings) (h : Heap) (line : String) : String → Heap → Prop
  | blank (hb : Blank line) : Answer stack s h line "" h
  | settled {p : Parsed} {o : Outcome} {text : String} {h' : Heap} (ha : Asks s line)
      (hev : EndsWith s h line p o h') (ho : Settled p h o h')
      (ht : report stack o = .ok text) : Answer stack s h line text h'

/-- A line stops a session with a fault: the parse comes to an integer literal of too many
digits, the value is an integer of too many digits or a function that the stack is not enough to
print, or the evaluation does not end, however many rounds its loops may make. -/
inductive Stops (stack : Stack) (s : Settings) (h : Heap) (line : String) : Fault → Prop
  | literal {t : Token} (ha : Asks s line) (ht : t ∈ (lineSource line).tokens)
      (hk : t.kind = .integer) (hlong : maxDigits < t.text.length)
      (hparse : (lineSource line).parse (limits s) = .error (.literalTooLong t.text.length)) :
      Stops stack s h line (.literalTooLong t.text.length)
  | value {p : Parsed} {n : Int} {h' : Heap} (ha : Asks s line)
      (hev : EndsWith s h line p (.finished (some (.integer n))) h')
      (hlong : Nat.pow 10 maxDigits ≤ n.natAbs) : Stops stack s h line .valueTooLong
  | function {p : Parsed} {c : Closure} {h' : Heap} (ha : Asks s line)
      (hev : EndsWith s h line p (.finished (some (.function c))) h')
      (hdeep : stack.prints c.body = false) : Stops stack s h line (.nestedTooDeep "str")
  | endless {p : Parsed} (ha : Asks s line)
      (hev : ∀ rounds, (evaluateLine s h line rounds).1 = .ok ⟨p, .error .endless⟩) :
      Stops stack s h line .endless

/-- Lines are answered one after the other, from a heap to a heap, each behind a prompt; this is
what is written. -/
inductive Answers (stack : Stack) (s : Settings) : Heap → List String → String → Heap → Prop
  | nil (h : Heap) : Answers stack s h [] "" h
  | cons {h h₁ h' : Heap} {line text out : String} {lines : List String}
      (hline : Answer stack s h line text h₁) (hlines : Answers stack s h₁ lines out h') :
      Answers stack s h (line :: lines) (s.prompt ++ text ++ out) h'

/-- How a session ends with these lines still to be read: what is written last, and the fault
that ends it, if one does. -/
inductive Ending (stack : Stack) (s : Settings) (h : Heap) :
    List String → String → Option Fault → Prop
  | exhausted : Ending stack s h [] (s.prompt ++ "\n") none
  | left {line : String} {rest : List String} (hl : Leaves s line) :
      Ending stack s h (line :: rest) s.prompt none
  | stopped {line : String} {rest : List String} {fault : Fault}
      (hs : Stops stack s h line fault) : Ending stack s h (line :: rest) s.prompt (some fault)

/-- The course of a session on lines: some of them are answered, and with the others the session
ends. -/
def Course (stack : Stack) (s : Settings) (h : Heap) (lines : List String) (out : String)
    (fault : Option Fault) : Prop :=
  ∃ answered rest text last h', lines = answered ++ rest ∧ Answers stack s h answered text h' ∧
    Ending stack s h' rest last fault ∧ out = text ++ last

/-! ## The lines of an input -/

theorem splitOn_endLines (hl : ∀ line ∈ lines, '\n' ∉ line.toList) :
    (String.join (lines.map (· ++ "\n"))).toList.splitOn '\n' =
      lines.map String.toList ++ [[]] := by
  induction lines with
  | nil => rfl
  | cons line lines ih =>
    have hline := hl line (List.mem_cons_self ..)
    have hlines := ih fun l hmem => hl l (List.mem_cons_of_mem _ hmem)
    have htext : (String.join ((line :: lines).map (· ++ "\n"))).toList =
        line.toList ++ '\n' :: (String.join (lines.map (· ++ "\n"))).toList := by
      simp [String.toList_append]
    rw [htext, List.splitOn_append_cons_self_of_not_mem hline, hlines]
    rfl

/-- All lines are lines of an input: what is written line after line is read so. -/
theorem inputLines_join (hl : ∀ line ∈ lines, '\n' ∉ line.toList) :
    inputLines (String.join (lines.map (· ++ "\n"))) = lines := by
  have hpieces : (lines.map String.toList ++ [[]]).map String.ofList = lines ++ [""] := by
    simp
  unfold inputLines
  rw [splitOn_endLines hl, hpieces]
  simp

/-! ## Reports -/

theorem integerText_long {n : Int} (hlong : Nat.pow 10 maxDigits ≤ n.natAbs) :
    integerText n = .error .valueTooLong :=
  if_neg (Nat.not_lt.2 hlong)

theorem report_long (stack : Stack) {n : Int} (hlong : Nat.pow 10 maxDigits ≤ n.natAbs) :
    report stack (.finished (some (.integer n))) = .error .valueTooLong := by
  simp only [report, Value.displayOn, Value.display, integerText_long hlong]
  rfl

theorem report_deep {c : Closure} (hdeep : stack.prints c.body = false) :
    report stack (.finished (some (.function c))) = .error (.nestedTooDeep "str") := by
  simp only [report, Value.displayOn, hdeep]
  rfl

/-- Every outcome can be reported but an integer of too many digits, and a function that the
stack is not enough to print. -/
theorem report_cases (stack : Stack) (o : Outcome) : (∃ text, report stack o = .ok text) ∨
    (∃ n : Int, o = .finished (some (.integer n)) ∧ Nat.pow 10 maxDigits ≤ n.natAbs) ∨
      ∃ c : Closure, o = .finished (some (.function c)) ∧ stack.prints c.body = false := by
  cases o with
  | rejected ds => exact .inl ⟨_, rfl⟩
  | failed cause d => exact .inl ⟨_, rfl⟩
  | finished value =>
    rcases value with _ | (n | b | c)
    · exact .inl ⟨_, rfl⟩
    · by_cases hlong : Nat.pow 10 maxDigits ≤ n.natAbs
      · exact .inr (.inl ⟨n, rfl, hlong⟩)
      · have hshort : integerText n = .ok (toString n) := if_pos (Nat.lt_of_not_le hlong)
        refine .inl ⟨toString n ++ "\n", ?_⟩
        simp only [report, Value.displayOn, Value.display, hshort]
        rfl
    · exact .inl ⟨_, rfl⟩
    · cases hprints : stack.prints c.body with
      | false => exact .inr (.inr ⟨c, rfl, hprints⟩)
      | true =>
        refine .inl ⟨c.print ++ "\n", ?_⟩
        simp only [report, Value.displayOn, hprints]
        rfl

/-! ## One line -/

theorem answer_of_blank (hb : Blank line) (rounds : Nat) :
    answer stack s h line rounds = .go h (.ok "") [] := by
  have hempty : (Text.trim line).isEmpty = true := by rw [hb]; rfl
  simp only [answer, hempty, if_true]

theorem answer_of_leaves (hl : Leaves s line) (rounds : Nat) :
    answer stack s h line rounds = .leave := by
  have hempty : (Text.trim line).isEmpty = false := by simpa [Blank] using hl.1
  have hexit : isExit s (Text.trim line) = true := decide_eq_true hl.2
  simp [answer, hempty, hexit]

/-- A line that is there to be evaluated is answered with the report of its outcome. -/
theorem answer_of_asks (ha : Asks s line) (rounds : Nat) : answer stack s h line rounds =
    .go (evaluateLine s h line rounds).2
      (Heap.Evaluated.result (evaluateLine s h line rounds).1 >>= report stack)
      (Heap.Evaluated.logEntries (evaluateLine s h line rounds).1) := by
  have hempty : (Text.trim line).isEmpty = false := by simpa [Blank] using ha.1
  have hexit : isExit s (Text.trim line) = false :=
    decide_eq_false fun he => ha.2 ⟨ha.1, he⟩
  simp [answer, hempty, hexit, evaluateLine, lineSource]

/-- Where the evaluation of a line ends, this is what the line is answered with. -/
theorem EndsWith.answer_eq (stack : Stack) {p : Parsed} {o : Outcome}
    (hev : EndsWith s h line p o h') (ha : Asks s line) :
    ∃ least, ∀ rounds ≥ least, ∃ log,
      answer stack s h line rounds = .go h' (report stack o) log := by
  obtain ⟨least, hge⟩ := hev
  refine ⟨least, fun rounds hr => ?_⟩
  rw [answer_of_asks ha, hge rounds hr]
  exact ⟨_, rfl⟩

/-- A line that is answered lets the session go on. -/
theorem Answer.answer_eq (ha : Answer stack s h line text h') :
    ∃ least, ∀ rounds ≥ least, ∃ log, answer stack s h line rounds = .go h' (.ok text) log := by
  cases ha with
  | blank hb => exact ⟨0, fun rounds _ => ⟨_, answer_of_blank hb rounds⟩⟩
  | settled ha hev ho ht => exact ht ▸ hev.answer_eq stack ha

/-- A line that stops the session does so with its fault. -/
theorem Stops.answer_eq (hs : Stops stack s h line fault) :
    ∃ least, ∀ rounds ≥ least, ∃ h' log,
      answer stack s h line rounds = .go h' (.error fault) log := by
  cases hs with
  | @literal t ha _ _ _ hparse =>
    refine ⟨0, fun rounds _ => ?_⟩
    have hev : (evaluateLine s h line rounds).1 = .error (.literalTooLong t.text.length) := by
      simp only [evaluateLine, Heap.evaluate, hparse]
    rw [answer_of_asks ha, hev]
    exact ⟨_, _, rfl⟩
  | value ha hev hlong =>
    obtain ⟨least, hge⟩ := hev.answer_eq stack ha
    exact ⟨least, fun rounds hr => ⟨_, report_long stack hlong ▸ hge rounds hr⟩⟩
  | function ha hev hdeep =>
    obtain ⟨least, hge⟩ := hev.answer_eq stack ha
    exact ⟨least, fun rounds hr => ⟨_, report_deep hdeep ▸ hge rounds hr⟩⟩
  | endless ha hev =>
    refine ⟨0, fun rounds _ => ?_⟩
    rw [answer_of_asks ha, hev rounds]
    exact ⟨_, _, rfl⟩

/-- Where all functions are whole, a line ends the session, is answered, or stops it. -/
theorem line_cases (stack : Stack) (hp : s.Positive) (hd : s.recursionLimit ≤ maxDepthLimit)
    (hh : h.Whole) (line : String) :
    Leaves s line ∨ (∃ text h', Answer stack s h line text h' ∧ h'.Whole) ∨
      ∃ fault, Stops stack s h line fault := by
  by_cases hb : Blank line
  · exact .inr (.inl ⟨"", h, .blank hb, hh⟩)
  by_cases hl : Leaves s line
  · exact .inl hl
  right
  have hasks : Asks s line := ⟨hb, hl⟩
  have hdepth : (limits s).depth ≤ maxDepthLimit := hd
  rcases (lineSource line).parse_ok_or_refused hdepth with ⟨p, hparse⟩ | ⟨t, ht, hk, hlong, hparse⟩
  · rcases Heap.evaluate_ends Heap.globalFrame hp.maxErrors hdepth hh hparse with
      hnever | ⟨least, o, h', -, hge, hsettled, hwhole⟩
    · exact .inr ⟨_, .endless hasks hnever⟩
    have hends : EndsWith s h line p o h' := ⟨least, hge⟩
    rcases report_cases stack o with ⟨text, htext⟩ | ⟨n, rfl, hlong⟩ | ⟨c, rfl, hdeep⟩
    · exact .inl ⟨text, h', .settled hasks hends hsettled htext, hwhole⟩
    · exact .inr ⟨_, .value hasks hends hlong⟩
    · exact .inr ⟨_, .function hasks hends hdeep⟩
  · exact .inr ⟨_, .literal hasks ht hk hlong hparse⟩

/-! ## All lines -/

/-- What a session does after the lines that are answered it does behind what was written
for them. -/
theorem Answers.runLines_append (ha : Answers stack s h lines out h') (rest : List String) :
    ∃ least, ∀ rounds ≥ least,
      (runLines stack s rounds h (lines ++ rest)).output =
        out ++ (runLines stack s rounds h' rest).output ∧
      (runLines stack s rounds h (lines ++ rest)).fault =
        (runLines stack s rounds h' rest).fault := by
  induction ha with
  | nil h => exact ⟨0, fun _ _ => ⟨(String.empty_append).symm, rfl⟩⟩
  | cons hline _ ih =>
    obtain ⟨least₁, hanswer⟩ := hline.answer_eq
    obtain ⟨least₂, hrest⟩ := ih
    -- rounds that are enough for the line, and for the lines behind it
    refine ⟨max least₁ least₂, fun rounds hr => ?_⟩
    obtain ⟨log, hanswer⟩ := hanswer rounds (Nat.le_trans (Nat.le_max_left ..) hr)
    obtain ⟨hout, hfault⟩ := hrest rounds (Nat.le_trans (Nat.le_max_right ..) hr)
    rw [List.cons_append, runLines, hanswer]
    simp only [Transcript.behind]
    exact ⟨by simp only [hout, String.append_assoc], hfault⟩

/-- A session ends as it is said to end. -/
theorem Ending.runLines_eq {last : String} {fault : Option Fault}
    (he : Ending stack s h rest last fault) :
    ∃ least, ∀ rounds ≥ least, (runLines stack s rounds h rest).output = last ∧
      (runLines stack s rounds h rest).fault = fault := by
  cases he with
  | exhausted => exact ⟨0, fun _ _ => ⟨rfl, rfl⟩⟩
  | left hl =>
    refine ⟨0, fun rounds _ => ?_⟩
    rw [runLines, answer_of_leaves hl]
    exact ⟨rfl, rfl⟩
  | stopped hs =>
    obtain ⟨least, hge⟩ := hs.answer_eq
    refine ⟨least, fun rounds hr => ?_⟩
    obtain ⟨h', log, hanswer⟩ := hge rounds hr
    rw [runLines, hanswer]
    exact ⟨rfl, rfl⟩

/-- A session has the course that it is said to have. -/
theorem Course.runLines_eq {fault : Option Fault} (hc : Course stack s h lines out fault) :
    ∃ least, ∀ rounds ≥ least, (runLines stack s rounds h lines).output = out ∧
      (runLines stack s rounds h lines).fault = fault := by
  obtain ⟨answered, rest, text, last, h', rfl, hanswers, hending, rfl⟩ := hc
  obtain ⟨least₁, hanswered⟩ := hanswers.runLines_append rest
  obtain ⟨least₂, hended⟩ := hending.runLines_eq
  refine ⟨max least₁ least₂, fun rounds hr => ?_⟩
  obtain ⟨hout, hfault⟩ := hanswered rounds (Nat.le_trans (Nat.le_max_left ..) hr)
  obtain ⟨hlast, hlastFault⟩ := hended rounds (Nat.le_trans (Nat.le_max_right ..) hr)
  exact ⟨by rw [hout, hlast], hfault.trans hlastFault⟩

/-- Every session has a course. -/
theorem course_exists (stack : Stack) (hp : s.Positive) (hd : s.recursionLimit ≤ maxDepthLimit)
    (hh : h.Whole) (lines : List String) : ∃ out fault, Course stack s h lines out fault := by
  induction lines generalizing h with
  | nil => exact ⟨_, _, [], [], "", _, h, rfl, .nil h, .exhausted, rfl⟩
  | cons line lines ih =>
    rcases line_cases stack hp hd hh line with hl | ⟨text, h₁, hanswer, hwhole⟩ | ⟨fault, hstops⟩
    · exact ⟨_, _, [], _, "", _, h, rfl, .nil h, .left hl, rfl⟩
    · obtain ⟨out, fault, answered, rest, texts, last, h', rfl, hanswers, hending, -⟩ := ih hwhole
      exact ⟨_, fault, line :: answered, rest, _, last, h', rfl, .cons hanswer hanswers, hending,
        rfl⟩
    · exact ⟨_, _, [], _, "", _, h, rfl, .nil h, .stopped hstops, rfl⟩

/-- More rounds change no session that does not end with an endless line. -/
theorem runLines_extends (stack : Stack) (s : Settings) (h : Heap) {rounds rounds' : Nat}
    (hr : rounds ≤ rounds') (lines : List String) :
    (runLines stack s rounds h lines).fault = some .endless ∨
      runLines stack s rounds' h lines = runLines stack s rounds h lines := by
  induction lines generalizing h with
  | nil => exact .inr rfl
  | cons line lines ih =>
    by_cases hb : Blank line
    · simp only [runLines, answer_of_blank hb, Transcript.behind]
      rcases ih h with hendless | hsame
      · exact .inl hendless
      · exact .inr (by rw [hsame])
    by_cases hl : Leaves s line
    · exact .inr (by simp only [runLines, answer_of_leaves hl])
    have ha : Asks s line := ⟨hb, hl⟩
    have hextends : Heap.Evaluated.result (evaluateLine s h line rounds).1 = .error .endless ∨
        evaluateLine s h line rounds' = evaluateLine s h line rounds :=
      Heap.evaluate_extends hr
    rcases hextends with hendless | hsame
    · left
      simp only [runLines, answer_of_asks ha, hendless]
      rfl
    · simp only [runLines, answer_of_asks ha, hsame]
      cases Heap.Evaluated.result (evaluateLine s h line rounds).1 >>= report stack with
      | error fault => exact .inr rfl
      | ok text =>
        simp only [Transcript.behind]
        rcases ih (evaluateLine s h line rounds).2 with hendless | hsame
        · exact .inl hendless
        · exact .inr (by rw [hsame])

/-- A session that does not end with an endless line goes the same with more rounds. -/
theorem run_extends {rounds rounds' : Nat} (hr : rounds ≤ rounds') {input : String}
    (hends : (run stack s input rounds).fault ≠ some .endless) :
    run stack s input rounds' = run stack s input rounds := by
  have hsame := (runLines_extends stack s .initial hr (inputLines input)).resolve_left hends
  rw [run, hsame]
  rfl

/-- **A session answers line after line until no line is left, one is the exit keyword, or one
stops it.** Loaded settings that can be put in force make this the whole story, on any stack:
every session has a course, and what is written and how it ends, as soon as its loops may make
enough rounds, are those of its course. -/
theorem run_ends_iff {read : SettingsReader} {room : Nat} {files : Files} {path : Option String}
    {environment : Environment} (hload : Settings.load read room files path environment = .ok s)
    (hdepth : s.recursionLimit ≤ maxDepthLimit) (stack : Stack) (input : String) :
    (∃ out fault, Course stack s Heap.initial (inputLines input) out fault) ∧
      ∀ out fault, Course stack s Heap.initial (inputLines input) out fault ↔
        ∃ least, ∀ rounds ≥ least, (run stack s input rounds).output = banner s ++ out ∧
          (run stack s input rounds).fault = fault := by
  have hpositive := Settings.load_positive hload
  have hcourse := course_exists stack hpositive hdepth Heap.whole_initial (inputLines input)
  refine ⟨hcourse, fun out fault => ⟨fun hc => ?_, fun ⟨least, hge⟩ => ?_⟩⟩
  · obtain ⟨least, hge⟩ := hc.runLines_eq
    refine ⟨least, fun rounds hr => ?_⟩
    obtain ⟨hout, hfault⟩ := hge rounds hr
    exact ⟨congrArg (banner s ++ ·) hout, hfault⟩
  · -- there is a course, and with enough rounds the session cannot have two
    obtain ⟨out', fault', hc⟩ := hcourse
    obtain ⟨least', hge'⟩ := hc.runLines_eq
    obtain ⟨hout, hfault⟩ := hge (max least least') (Nat.le_max_left ..)
    obtain ⟨hout', hfault'⟩ := hge' (max least least') (Nat.le_max_right ..)
    have hsameOut : out = out' := by
      rw [← hout']
      exact ((String.append_right_inj _).1 hout).symm
    have hsameFault : fault = fault' := hfault.symm.trans hfault'
    rw [hsameOut, hsameFault]
    exact hc

/-- A session with an exit keyword of the environment, in which a line fails and another one is
no program. -/
theorem run_ends_errors : ∃ s, Settings.load Yaml.read 1000 (.ofAnswers []) none
      [("EMBER_EXIT_KEYWORD", "Quit")] = .ok s ∧ s.recursionLimit ≤ maxDepthLimit ∧
    Course .standard s Heap.initial (inputLines "foo\nlet y 1;\n1 + 1\n quit \n99\n")
      (">> error[E401]: identifier not found: foo\n>> syntax error(s):\n" ++
        "\texpected next token to be ASSIGN, got INT_LITERAL instead\n>> 2\n>> ") none := by
  have hload : Settings.load Yaml.read 1000 (.ofAnswers []) none
      [("EMBER_EXIT_KEYWORD", "Quit")] = .ok { exitKeyword := "Quit" } := by decide +kernel
  obtain ⟨-, hcourse⟩ := run_ends_iff hload (by decide) .standard
    "foo\nlet y 1;\n1 + 1\n quit \n99\n"
  have hrun : (run .standard { exitKeyword := "Quit" }
        "foo\nlet y 1;\n1 + 1\n quit \n99\n" 0).output =
      banner { exitKeyword := "Quit" } ++
        (">> error[E401]: identifier not found: foo\n>> syntax error(s):\n" ++
          "\texpected next token to be ASSIGN, got INT_LITERAL instead\n>> 2\n>> ") ∧
      (run .standard { exitKeyword := "Quit" }
        "foo\nlet y 1;\n1 + 1\n quit \n99\n" 0).fault = none := by decide +kernel
  refine ⟨_, hload, by decide, (hcourse _ _).2 ⟨0, fun rounds hr => ?_⟩⟩
  rw [run_extends hr (by rw [hrun.2]; exact nofun)]
  exact hrun

/-- **The value of a line may be too long to be shown**, and then the session ends with it. -/
theorem long_value_stops : Settings.load Yaml.read 1000 (.ofAnswers []) none [] = .ok {} ∧
    (run .standard {} "let t = function(x) {x*x*x*x*x*x}; t(t(t(t(t(10)))))\n1\n").fault =
      some .valueTooLong := by
  decide +kernel

end Repl

end Ember

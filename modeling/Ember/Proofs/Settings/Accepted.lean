import Ember.Proofs.Settings.Loaded

/-!
# What a setting takes

`Setting.Takes` says which data fit a setting, and what each of them is taken for: a text is
any text, a truth value may be written as a word, and a limit is a positive integer, which
may be a number with digits behind its point or the text of an integer. Putting a datum at a
setting succeeds for these data alone, and changes that one setting (`Settings.set_ok_iff`).

A datum that does not fit is refused, and the refusal shows it (`Settings.set_refused`); only
an infinite number in the place of a limit is a fault (`Settings.set_infinite`).
-/

namespace Ember

namespace Datum

/-- The integer that a datum stands for, unless it is a truth value. -/
def limit? : Datum → Option Int
  | integer value => some value
  | float value => value.truncate?
  | text value => Text.readInteger? value
  | _ => none

/-- A number beyond all integers. -/
def IsInfinite : Datum → Prop
  | float (.infinite _) => True
  | _ => False

end Datum

namespace Setting

/-- Whether a setting is a number. -/
def isLimit : Setting → Bool
  | maxErrors | recursionLimit => true
  | _ => false

/-- The words for a truth value, in lower case. -/
def booleanWords : Bool → List String
  | true => ["1", "true", "yes", "on"]
  | false => ["0", "false", "no", "off"]

/-- What a setting takes a datum for, if the datum fits. -/
inductive Takes : Setting → Datum → Datum → Prop
  | prompt (value : String) : Takes prompt (.text value) (.text value)
  | exitKeyword (value : String) : Takes exitKeyword (.text value) (.text value)
  | boolean (value : Bool) : Takes showSource (.boolean value) (.boolean value)
  | word {word : String} {value : Bool} : Text.lowerCase word ∈ booleanWords value →
      Takes showSource (.text word) (.boolean value)
  | limit {s : Setting} {given : Datum} {value : Int} : s.isLimit → given.limit? = some value →
      1 ≤ value → Takes s given (.integer value)

/-- The causes that a setting refuses a datum for. -/
def causes : Setting → List (String → SettingsCause)
  | s@prompt | s@exitKeyword => [.notText s]
  | s@showSource => [.notBoolean s]
  | s@maxErrors | s@recursionLimit => [.notInteger s, .notPositive s]

variable {s : Setting} {given : Datum} {room : Nat}

/-! ## Reading -/

theorem readText_ok_iff {value : String} :
    s.readText room given = .ok value ↔ given = .text value := by
  cases given <;> simp [readText]

theorem readText_refused (hr : ∀ value, s.readText room given ≠ .ok value) :
    s.readText room given = .error (.refusal room (.notText s) given) := by
  cases given with
  | text value => exact absurd rfl (hr value)
  | _ => rfl

theorem booleanWord?_eq_some_iff {word : String} {value : Bool} :
    booleanWord? word = some value ↔ Text.lowerCase word ∈ booleanWords value := by
  -- no word stands for both
  have hapart : ∀ w ∈ booleanWords true, w ∉ booleanWords false := by decide
  change (if Text.lowerCase word ∈ booleanWords true then some true
    else if Text.lowerCase word ∈ booleanWords false then some false else none) = some value ↔ _
  by_cases hon : Text.lowerCase word ∈ booleanWords true
  · have hoff := hapart _ hon
    cases value <;> simp [hon, hoff]
  · by_cases hoff : Text.lowerCase word ∈ booleanWords false <;> cases value <;> simp [hon, hoff]

theorem readBoolean_ok_iff {value : Bool} :
    s.readBoolean room given = .ok value ↔ showSource.Takes given (.boolean value) := by
  constructor
  · intro h
    unfold readBoolean at h
    cases given with
    | boolean b =>
      cases h
      exact .boolean value
    | text word =>
      cases hword : booleanWord? word with
      | none =>
        simp only [hword] at h
        cases h
      | some b =>
        simp only [hword] at h
        cases h
        exact .word (booleanWord?_eq_some_iff.1 hword)
    | _ => cases h
  · rintro (_ | _ | _ | hword | ⟨⟨⟩⟩)
    · rfl
    · simp only [readBoolean, booleanWord?_eq_some_iff.2 hword]

theorem readBoolean_refused (hr : ∀ value, s.readBoolean room given ≠ .ok value) :
    s.readBoolean room given = .error (.refusal room (.notBoolean s) given) := by
  cases given with
  | boolean value => exact absurd rfl (hr value)
  | text word =>
    cases hword : booleanWord? word with
    | some value => exact absurd (by simp only [readBoolean, hword]) (hr value)
    | none => simp only [readBoolean, hword]
  | _ => rfl

/-- What is read as an integer is what stands for one. -/
theorem readInteger_ok_iff (hb : ∀ b, given ≠ .boolean b) {value : Int} :
    s.readInteger room given = .ok value ↔ given.limit? = some value := by
  cases given with
  | boolean b => exact absurd rfl (hb b)
  | integer n => simp [readInteger, Datum.limit?]
  | float x => cases x <;> simp [readInteger, Datum.limit?, Binary64.truncate?]
  | text word =>
    rw [readInteger, Datum.limit?]
    cases Text.readInteger? word <;> simp
  | _ => exact ⟨nofun, nofun⟩

/-- What stands for no integer is refused, but for an infinite number. -/
theorem readInteger_of_no_limit (hb : ∀ b, given ≠ .boolean b) (hl : given.limit? = none)
    (hi : ¬ given.IsInfinite) :
    s.readInteger room given = .error (.refusal room (.notInteger s) given) := by
  cases given with
  | boolean b => exact absurd rfl (hb b)
  | integer n => cases hl
  | float x =>
    cases x with
    | infinite negative => exact absurd trivial hi
    | finite negative mantissa exponent => cases hl
    | notANumber => rfl
  | text word =>
    have hread : Text.readInteger? word = none := hl
    simp only [readInteger, hread]
  | _ => rfl

theorem readPositive_eq (hb : ∀ b, given ≠ .boolean b) :
    s.readPositive room given = s.readInteger room given >>= fun value =>
      if value < 1 then .error (.refusal room (.notPositive s) given) else pure value := by
  cases given with
  | boolean b => exact absurd rfl (hb b)
  | _ => simp only [readPositive, Bool.false_eq_true, false_or]

theorem readPositive_ok_iff {value : Int} :
    s.readPositive room given = .ok value ↔ given.limit? = some value ∧ 1 ≤ value := by
  by_cases hb : ∃ b, given = .boolean b
  · obtain ⟨b, rfl⟩ := hb
    exact ⟨nofun, nofun⟩
  have hb : ∀ b, given ≠ .boolean b := fun b he => hb ⟨b, he⟩
  rw [readPositive_eq hb, bind_eq_ok]
  constructor
  · rintro ⟨n, hn, hok⟩
    obtain ⟨hpos, rfl⟩ := ite_error_eq_ok.1 hok
    exact ⟨(readInteger_ok_iff hb).1 hn, Int.not_lt.1 hpos⟩
  · rintro ⟨hl, hpos⟩
    exact ⟨value, (readInteger_ok_iff hb).2 hl, ite_error_eq_ok.2 ⟨Int.not_lt.2 hpos, rfl⟩⟩

/-- An infinite number is no integer, and this is not reported as a refusal. -/
theorem readPositive_infinite (hi : given.IsInfinite) :
    s.readPositive room given = .error (.fault .infinite) := by
  cases given with
  | float x =>
    cases x with
    | infinite negative => rfl
    | _ => cases hi
  | _ => cases hi

/-- A datum that is read as no positive integer is refused, but for an infinite number. -/
theorem readPositive_refused (hr : ∀ value, s.readPositive room given ≠ .ok value)
    (hi : ¬ given.IsInfinite) :
    ∃ cause ∈ [SettingsCause.notInteger s, .notPositive s],
      s.readPositive room given = .error (.refusal room cause given) := by
  by_cases hb : ∃ b, given = .boolean b
  · obtain ⟨b, rfl⟩ := hb
    exact ⟨.notPositive s, by simp, rfl⟩
  have hb : ∀ b, given ≠ .boolean b := fun b he => hb ⟨b, he⟩
  cases hl : given.limit? with
  | none =>
    refine ⟨.notInteger s, by simp, ?_⟩
    rw [readPositive_eq hb, readInteger_of_no_limit hb hl hi]
    rfl
  | some n =>
    have hlt : n < 1 := Int.not_le.1 fun hpos => hr n (readPositive_ok_iff.2 ⟨hl, hpos⟩)
    refine ⟨.notPositive s, by simp, ?_⟩
    rw [readPositive_eq hb, (readInteger_ok_iff hb).2 hl]
    exact if_pos hlt

/-- A datum is taken for one thing. -/
theorem Takes.unique {value value' : Datum} (h : s.Takes given value) (h' : s.Takes given value') :
    value = value' := by
  cases h with
  | word hw =>
    cases h' with
    | word hw' =>
      have hsome := (booleanWord?_eq_some_iff.2 hw).symm.trans (booleanWord?_eq_some_iff.2 hw')
      rw [Option.some.inj hsome]
    | limit hs => cases hs
  | limit hs hl =>
    cases h' with
    | limit _ hl' => rw [Option.some.inj (hl.symm.trans hl')]
    | _ => cases hs
  | _ =>
    cases h' with
    | limit hs => cases hs
    | _ => rfl

end Setting

/-! ## Putting a datum at a setting -/

namespace Settings

/-- What a setting is, as a datum. -/
def datum (s : Settings) : Setting → Datum
  | .prompt => .text s.prompt
  | .exitKeyword => .text s.exitKeyword
  | .maxErrors => .integer s.maxErrors
  | .showSource => .boolean s.showSource
  | .recursionLimit => .integer s.recursionLimit

variable {s s' : Settings} {setting : Setting} {given : Datum} {room : Nat}

/-- Settings with the same data are the same. -/
theorem datum_inj (h : ∀ setting, s.datum setting = s'.datum setting) : s = s' := by
  have hprompt := Datum.text.inj (h .prompt)
  have hexit := Datum.text.inj (h .exitKeyword)
  have herrors := Datum.integer.inj (h .maxErrors)
  have hsource := Datum.boolean.inj (h .showSource)
  have hlimit := Datum.integer.inj (h .recursionLimit)
  cases s
  cases s'
  simp_all

theorem takes_of_set (h : s.set room setting given = .ok s') :
    setting.Takes given (s'.datum setting) := by
  cases setting <;> obtain ⟨value, hvalue, hs'⟩ := bind_eq_ok.1 h <;> cases hs'
  case prompt => rw [Setting.readText_ok_iff.1 hvalue]; exact .prompt value
  case exitKeyword => rw [Setting.readText_ok_iff.1 hvalue]; exact .exitKeyword value
  case showSource => exact Setting.readBoolean_ok_iff.1 hvalue
  all_goals
    obtain ⟨hl, hpos⟩ := Setting.readPositive_ok_iff.1 hvalue
    exact .limit rfl hl hpos

theorem exists_set {value : Datum} (h : setting.Takes given value) :
    ∃ s', s.set room setting given = .ok s' := by
  cases h with
  | prompt text => exact ⟨_, rfl⟩
  | exitKeyword text => exact ⟨_, rfl⟩
  | boolean b => exact ⟨_, rfl⟩
  | word hw => exact ⟨_, bind_eq_ok.2 ⟨_, Setting.readBoolean_ok_iff.2 (.word hw), rfl⟩⟩
  | @limit _ _ value hs hl hpos =>
    have hread : setting.readPositive room given = .ok value :=
      Setting.readPositive_ok_iff.2 ⟨hl, hpos⟩
    cases setting with
    | maxErrors | recursionLimit => exact ⟨_, bind_eq_ok.2 ⟨_, hread, rfl⟩⟩
    | _ => cases hs

/-- Putting a datum at a setting leaves the others as they are. -/
theorem datum_set (h : s.set room setting given = .ok s') {other : Setting}
    (hne : other ≠ setting) : s'.datum other = s.datum other := by
  cases setting <;> obtain ⟨value, -, hs'⟩ := bind_eq_ok.1 h <;> cases hs' <;>
    cases other <;> first | rfl | exact absurd rfl hne

/-- **A datum is put at a setting exactly if it fits there**, and the other settings stay as
they are. -/
theorem set_ok_iff : s.set room setting given = .ok s' ↔
    setting.Takes given (s'.datum setting) ∧
      ∀ other, other ≠ setting → s'.datum other = s.datum other := by
  constructor
  · intro h
    exact ⟨takes_of_set h, fun other hne => datum_set h hne⟩
  · rintro ⟨htakes, hrest⟩
    obtain ⟨s₁, hs₁⟩ := exists_set (s := s) htakes
    have hsame : s₁ = s' := by
      refine datum_inj fun other => ?_
      by_cases he : other = setting
      · rw [he]
        exact (takes_of_set hs₁).unique htakes
      · exact (datum_set hs₁ he).trans (hrest other he).symm
    rw [hs₁, hsame]

/-- An infinite number in the place of a limit is a fault. -/
theorem set_infinite (hl : setting.isLimit) (hi : given.IsInfinite) :
    s.set room setting given = .error (.fault .infinite) := by
  have hread : setting.readPositive room given = .error (.fault .infinite) :=
    Setting.readPositive_infinite hi
  cases setting with
  | maxErrors | recursionLimit => simp only [set, hread]; rfl
  | _ => cases hl

/-- **A datum that does not fit is refused**, but for an infinite number in the place of a
limit. What the settings were does not matter. -/
theorem set_refused (hr : ∀ value, ¬ setting.Takes given value)
    (hi : ¬ (setting.isLimit ∧ given.IsInfinite)) :
    ∃ cause ∈ setting.causes, ∀ s : Settings,
      s.set room setting given = .error (.refusal room cause given) := by
  have hset : ∀ s', set room {} setting given ≠ .ok s' := fun s' h => hr _ (takes_of_set h)
  cases setting with
  | prompt | exitKeyword =>
    have hread := Setting.readText_refused fun value h => hset _ (bind_eq_ok.2 ⟨value, h, rfl⟩)
    refine ⟨_, List.mem_singleton.2 rfl, fun s => ?_⟩
    simp only [set, hread]
    rfl
  | showSource =>
    have hread := Setting.readBoolean_refused fun value h => hset _ (bind_eq_ok.2 ⟨value, h, rfl⟩)
    refine ⟨_, List.mem_singleton.2 rfl, fun s => ?_⟩
    simp only [set, hread]
    rfl
  | maxErrors | recursionLimit =>
    obtain ⟨cause, hcause, hread⟩ := Setting.readPositive_refused
      (fun value h => hset _ (bind_eq_ok.2 ⟨value, h, rfl⟩)) fun h => hi ⟨rfl, h⟩
    refine ⟨cause, hcause, fun s => ?_⟩
    simp only [set, hread]
    rfl

end Settings

end Ember

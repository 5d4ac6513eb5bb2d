import Ember.Proofs.Settings.Merged

/-!
# Where loaded settings come from

Settings are built in, and may be given by a file and by the environment. Everything that the
file gives has to fit, also what the environment gives anew; a setting is then what the
environment gives for it, or else the file, or else what is built in (`Settings.load_ok_iff`).
That rests on the laws of merging, which hold of all settings that come of the built-in ones
by merging (`merging_composes`).
-/

namespace Ember

namespace Settings

variable {s s' : Settings} {values : List (Datum × Datum)} {setting : Setting}
  {room : Nat}

/-- Settings that come of the built-in ones by merging. -/
inductive Configured : Settings → Prop
  | builtIn : Configured {}
  | merge {s s' : Settings} {values : List (Datum × Datum)} {room : Nat} : Configured s →
      s.merged room values = .ok s' → Configured s'

/-- The limits of configured settings are positive. -/
theorem Configured.positive (h : s.Configured) : s.Positive := by
  induction h with
  | builtIn => exact ⟨by decide, by decide⟩
  | merge _ hmerged ih => exact merged_induction Positive.set ih hmerged

/-! ## Settings as data -/

theorem entries_eq (s : Settings) :
    s.entries = Setting.all.filterMap fun setting =>
      (some (s.datum setting)).map fun given => (.text setting.name, given) := rfl

/-- What a setting is fits it, and is taken for itself. -/
theorem Positive.takes (h : s.Positive) (setting : Setting) :
    setting.Takes (s.datum setting) (s.datum setting) := by
  cases setting with
  | prompt => exact .prompt _
  | exitKeyword => exact .exitKeyword _
  | maxErrors => exact .limit rfl rfl h.maxErrors
  | showSource => exact .boolean _
  | recursionLimit => exact .limit rfl rfl h.recursionLimit

/-- **Settings that are merged with their own data stay as they are.** -/
theorem Positive.merged_entries (h : s.Positive) : s.merged room s.entries = .ok s := by
  refine merged_ok_iff.2 ⟨fun entry hentry => ?_, fun setting => ?_⟩
  · rw [entries_eq] at hentry
    obtain ⟨setting, -, he⟩ := List.mem_filterMap.1 hentry
    obtain rfl := Option.some.inj he
    exact ⟨setting, s.datum setting, ofKey?_eq_some_iff.2 rfl, h.takes setting⟩
  · rw [entries_eq, lastGiven_all]
    exact h.takes setting

/-! ## Loading -/

variable {read : SettingsReader} {files : Files} {path : Option String} {environment : Environment}

/-- The named data of the settings file, if there is one. -/
def fileValues (read : SettingsReader) (files : Files) (path : Option String)
    (environment : Environment) : Except LoadError (List (Datum × Datum)) :=
  match filePath? path environment with
  | some path => fileEntries read files path
  | none => .ok []

/-- What is given for a setting: by the environment, or else by the file. -/
def givenFor (values : List (Datum × Datum)) (environment : Environment) (setting : Setting) :
    Option Datum :=
  ((environment.lookup setting.variable).map Datum.text).or (lastGiven values setting)

theorem lastGiven_overrides (environment : Environment) (setting : Setting) :
    lastGiven (overrides environment) setting =
      (environment.lookup setting.variable).map Datum.text := by
  have hoverrides : overrides environment = Setting.all.filterMap fun s =>
      ((environment.lookup s.variable).map Datum.text).map fun given => (.text s.name, given) := by
    simp only [Option.map_map]
    rfl
  rw [hoverrides, lastGiven_all]

theorem load_eq (read : SettingsReader) (room : Nat) (files : Files) (path : Option String)
    (environment : Environment) :
    load read room files path environment =
      fileValues read files path environment >>= fun values =>
        apply room {} values >>= (·.apply room (overrides environment)) := by
  unfold load fileValues
  cases filePath? path environment with
  | none => rfl
  | some path =>
    cases fileEntries read files path with
    | error e => rfl
    | ok values => rfl

/-- What fits of the environment is what can be taken for its settings. -/
theorem fits_overrides (h : ∀ setting : Setting, ∀ text,
      environment.lookup setting.variable = some text → ∃ value, setting.Takes (.text text) value) :
    ∀ entry ∈ overrides environment, Fits entry := by
  intro entry hentry
  obtain ⟨setting, -, he⟩ := List.mem_filterMap.1 hentry
  obtain ⟨text, htext, rfl⟩ := Option.map_eq_some_iff.1 he
  obtain ⟨value, htakes⟩ := h setting text htext
  exact ⟨setting, value, ofKey?_eq_some_iff.2 rfl, htakes⟩

/-- **Where loaded settings come from.** All that the file gives has to fit, and each setting
is what is given for it by the environment, or else by the file, or else built in. -/
theorem load_ok_iff : load read room files path environment = .ok s ↔
    ∃ values, fileValues read files path environment = .ok values ∧
      (∀ entry ∈ values, Fits entry) ∧
        ∀ setting : Setting, setting.Becomes (givenFor values environment setting)
          (({} : Settings).datum setting) (s.datum setting) := by
  rw [load_eq, bind_eq_ok]
  constructor
  · rintro ⟨values, hvalues, h⟩
    obtain ⟨s₁, hs₁, hs⟩ := bind_eq_ok.1 h
    obtain ⟨hfits, hfile⟩ := merged_ok_iff.1 (mapError_eq_ok.1 hs₁)
    obtain ⟨-, hover⟩ := merged_ok_iff.1 (mapError_eq_ok.1 hs)
    refine ⟨values, hvalues, hfits, fun setting => ?_⟩
    rw [givenFor, ← lastGiven_overrides]
    exact (hfile setting).trans (hover setting)
  · rintro ⟨values, hvalues, hfits, hbecomes⟩
    have hover : ∀ entry ∈ overrides environment, Fits entry := by
      refine fits_overrides fun setting text htext => ⟨s.datum setting, ?_⟩
      have hsetting := hbecomes setting
      rw [givenFor, htext] at hsetting
      exact hsetting
    obtain ⟨s₁, hs₁⟩ := exists_merged room {} hfits
    obtain ⟨s₂, hs₂⟩ := exists_merged room s₁ hover
    have hsame : s₂ = s := by
      refine datum_inj fun setting => ?_
      have h₁ := (merged_ok_iff.1 hs₁).2 setting
      have h₂ := (merged_ok_iff.1 hs₂).2 setting
      rw [lastGiven_overrides] at h₂
      exact (h₁.trans h₂).unique (hbecomes setting)
    refine ⟨values, hvalues, bind_eq_ok.2 ⟨s₁, mapError_eq_ok.2 hs₁, ?_⟩⟩
    exact mapError_eq_ok.2 (hsame ▸ hs₂)

/-- What of the file does not fit is an error, whatever the environment gives. -/
theorem load_error (hvalues : fileValues read files path environment = .ok values)
    {entry : Datum × Datum} (hentry : entry ∈ values) (hfits : ¬ Fits entry) :
    ∃ error, load read room files path environment = .error error := by
  cases hload : load read room files path environment with
  | error error => exact ⟨error, rfl⟩
  | ok s =>
    obtain ⟨values', hvalues', hall, -⟩ := load_ok_iff.1 hload
    obtain rfl := Except.ok.inj (hvalues.symm.trans hvalues')
    exact absurd (hall entry hentry) hfits

end Settings

open Settings

/-- **Merging composes.** Of settings that come of the built-in ones by merging: data that are
merged one after the other may be put together and merged at once, with the last value of
each key; the settings are not changed by their own data; and their limits are positive. So
settings are loaded exactly if all that the file gives fits and each of them is what the
environment gives for it, or else the file, or else what is built in, as far as that fits. In
the file nothing that does not fit is passed over, also where the environment hides it.
Whatever reads the file as data may take the place of `read`. -/
theorem merging_composes {s : Settings} (hs : s.Configured) :
    (∀ a b s₁ s₂ room₁ room₂, s.merged room₁ a = .ok s₁ → s₁.merged room₂ b = .ok s₂ →
      ∀ room, s.merged room (Datum.ofEntries (a ++ b)) = .ok s₂) ∧
    (∀ room, s.merged room s.entries = .ok s) ∧ 1 ≤ s.maxErrors ∧ 1 ≤ s.recursionLimit ∧
    (∀ read room files path environment loaded,
      load read room files path environment = .ok loaded ↔
        ∃ values, fileValues read files path environment = .ok values ∧
          (∀ entry ∈ values, Fits entry) ∧
          ∀ setting : Setting, setting.Becomes (givenFor values environment setting)
            (({} : Settings).datum setting) (loaded.datum setting)) ∧
    ∀ read room files path environment values,
      fileValues read files path environment = .ok values → (∃ entry ∈ values, ¬ Fits entry) →
        ∃ error, load read room files path environment = .error error :=
  ⟨fun _ _ _ _ _ _ ha hb _ => merged_ofEntries ha hb, fun _ => hs.positive.merged_entries,
    hs.positive.maxErrors, hs.positive.recursionLimit, fun _ _ _ _ _ _ => load_ok_iff,
    fun _ _ _ _ _ _ hvalues ⟨_, hentry, hfits⟩ => load_error hvalues hentry hfits⟩

theorem merging_composes_lastWins :
    let s : Settings := { maxErrors := 5 }
    let a : List (Datum × Datum) := [(.text "prompt", .text "> "), (.text "max_errors", .integer 7)]
    let b : List (Datum × Datum) :=
      [(.text "max_errors", .text " 1_2 "), (.text "show_source", .text "OFF")]
    s.Configured ∧
      s.merged 1000 (Datum.ofEntries (a ++ b)) =
        .ok { prompt := "> ", maxErrors := 12, showSource := false } := by
  have h : ({} : Settings).merged 1000 [(.text "max_errors", .text "5")] =
      .ok { maxErrors := 5 } := rfl
  have hs : Settings.Configured { maxErrors := 5 } := .merge .builtIn h
  obtain ⟨hcompose, -⟩ := merging_composes hs
  exact ⟨hs, hcompose _ _ { prompt := "> ", maxErrors := 7 } _ 1000 1000 rfl rfl 1000⟩

end Ember

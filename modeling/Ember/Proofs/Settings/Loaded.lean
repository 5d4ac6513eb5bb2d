import Ember.Settings.Load

/-!
# What all loaded settings have in common

Settings are loaded by putting one datum after the other into those that are built in. What
holds of these, and is kept by every datum that fits, holds of all settings that are loaded,
whatever reads the settings file (`Settings.load_induction`). So their limits are positive
(`Settings.load_positive`).
-/

namespace Ember

section Results

variable {ε δ α β : Type} {x : Except ε α} {a : α}

theorem bind_eq_ok {f : α → Except ε β} {b : β} :
    x >>= f = .ok b ↔ ∃ a, x = .ok a ∧ f a = .ok b := by
  cases x with
  | error e => exact ⟨nofun, nofun⟩
  | ok a =>
    constructor
    · intro h
      exact ⟨a, rfl, h⟩
    · rintro ⟨a', ha, h⟩
      cases ha
      exact h

theorem mapError_eq_ok {f : ε → δ} : x.mapError f = .ok a ↔ x = .ok a := by
  cases x with
  | error e => exact ⟨nofun, nofun⟩
  | ok a =>
    constructor <;> intro h <;> exact congrArg Except.ok (Except.ok.inj h)

/-- A value that is refused under a condition gets through where it does not hold. -/
theorem ite_error_eq_ok {p : Prop} [Decidable p] {e : ε} {b : α} :
    (if p then .error e else pure a : Except ε α) = .ok b ↔ ¬ p ∧ a = b := by
  by_cases hp : p <;> simp [hp, pure, Except.pure]

end Results

/-- What is read as a positive integer is one. -/
theorem Setting.readPositive_pos {setting : Setting} {room : Nat} {given : Datum} {value : Int}
    (h : setting.readPositive room given = .ok value) : 1 ≤ value := by
  obtain ⟨n, -, hn⟩ := bind_eq_ok.1 h
  obtain ⟨hc, rfl⟩ := ite_error_eq_ok.1 hn
  have hlt : ¬ n < 1 := fun hlt => hc (.inr hlt)
  omega

namespace Settings

variable {s s' : Settings} {P : Settings → Prop} {read : SettingsReader} {room : Nat}

/-- What every datum keeps is kept by all of them in turn. -/
theorem setAll_induction {values : List (Datum × Datum)}
    (hset : ∀ {s s' : Settings} {setting : Setting} {given : Datum}, P s →
      s.set room setting given = .ok s' → P s')
    (hs : P s) (h : s.setAll room values = .ok s') : P s' := by
  induction values generalizing s with
  | nil =>
    cases h
    exact hs
  | cons entry values ih =>
    obtain ⟨key, given⟩ := entry
    unfold setAll at h
    cases hkey : Setting.ofKey? key with
    | none =>
      simp only [hkey] at h
      cases h
    | some setting =>
      simp only [hkey] at h
      obtain ⟨s₁, hs₁, hrest⟩ := bind_eq_ok.1 h
      exact ih (hset hs hs₁) hrest

theorem merged_induction {values : List (Datum × Datum)}
    (hset : ∀ {s s' : Settings} {setting : Setting} {given : Datum}, P s →
      s.set room setting given = .ok s' → P s')
    (hs : P s) (h : s.merged room values = .ok s') : P s' := by
  unfold merged at h
  split at h
  · exact setAll_induction hset hs h
  · cases h

theorem apply_induction {values : List (Datum × Datum)}
    (hset : ∀ {s s' : Settings} {setting : Setting} {given : Datum}, P s →
      s.set room setting given = .ok s' → P s')
    (hs : P s) (h : s.apply room values = .ok s') : P s' :=
  merged_induction hset hs (mapError_eq_ok.1 h)

/-- **What the built-in settings have, and every datum that fits keeps, all loaded settings
have.** -/
theorem load_induction {files : Files} {path : Option String} {environment : Environment}
    (hset : ∀ {s s' : Settings} {setting : Setting} {given : Datum}, P s →
      s.set room setting given = .ok s' → P s')
    (hs : P {}) (h : load read room files path environment = .ok s) : P s := by
  unfold load at h
  cases hpath : filePath? path environment with
  | none =>
    rw [hpath] at h
    exact apply_induction hset hs h
  | some path =>
    rw [hpath] at h
    obtain ⟨values, -, h⟩ := bind_eq_ok.1 h
    obtain ⟨s₁, hs₁, h⟩ := bind_eq_ok.1 h
    have hfile : P s₁ := apply_induction hset hs hs₁
    exact apply_induction hset hfile h

/-- The limits are positive. -/
structure Positive (s : Settings) : Prop where
  maxErrors : 1 ≤ s.maxErrors
  recursionLimit : 1 ≤ s.recursionLimit

theorem Positive.set {setting : Setting} {given : Datum} (hs : s.Positive)
    (h : s.set room setting given = .ok s') : s'.Positive := by
  cases setting <;> obtain ⟨value, hvalue, hs'⟩ := bind_eq_ok.1 h <;> cases hs'
  case maxErrors => exact ⟨Setting.readPositive_pos hvalue, hs.recursionLimit⟩
  case recursionLimit => exact ⟨hs.maxErrors, Setting.readPositive_pos hvalue⟩
  -- the other settings are no limits
  all_goals exact ⟨hs.maxErrors, hs.recursionLimit⟩

/-- **The limits of all loaded settings are positive**, whatever the settings file is read as. -/
theorem load_positive {files : Files} {path : Option String} {environment : Environment}
    (h : load read room files path environment = .ok s) : s.Positive :=
  load_induction Positive.set ⟨by decide, by decide⟩ h

end Settings

end Ember

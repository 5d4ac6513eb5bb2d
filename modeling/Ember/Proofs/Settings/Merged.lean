import Ember.Proofs.Settings.Accepted

/-!
# Settings that are merged in turn

Merging succeeds exactly if every entry names a setting and fits it. A setting is then what
the last datum that is given for it was taken for, or what it was before
(`Settings.merged_ok_iff`). So it makes no difference whether data are merged one after the
other or put together first (`Settings.merged_ofEntries`).
-/

namespace Ember

/-! ## Results -/

/-- What becomes of a setting: what it takes the datum for that is given, or what it was
before if none is. -/
def Setting.Becomes (setting : Setting) (given? : Option Datum) (before after : Datum) : Prop :=
  match given? with
  | some given => setting.Takes given after
  | none => after = before

/-- What a setting becomes is determined by what it was and what is given. -/
theorem Setting.Becomes.unique {setting : Setting} {given? : Option Datum}
    {before after after' : Datum} (h : setting.Becomes given? before after)
    (h' : setting.Becomes given? before after') : after = after' := by
  cases given? with
  | some given => exact Setting.Takes.unique h h'
  | none => exact Eq.trans h (Eq.symm h')

/-- What is given later counts. -/
theorem Setting.Becomes.trans {setting : Setting} {given₁ given₂ : Option Datum}
    {before between after : Datum} (h₁ : setting.Becomes given₁ before between)
    (h₂ : setting.Becomes given₂ between after) :
    setting.Becomes (given₂.or given₁) before after := by
  cases given₂ with
  | some given => exact h₂
  | none =>
    obtain rfl : after = between := h₂
    exact h₁

namespace Settings

variable {s s' : Settings} {values : List (Datum × Datum)} {setting : Setting}
  {key given : Datum} {room : Nat}

/-- Whether an entry names a setting and fits it. -/
def Fits (entry : Datum × Datum) : Prop :=
  ∃ setting value, Setting.ofKey? entry.1 = some setting ∧ setting.Takes entry.2 value

/-- The last datum that is given for a setting. -/
def lastGiven : List (Datum × Datum) → Setting → Option Datum
  | [], _ => none
  | (key, given) :: values, setting =>
    (lastGiven values setting).or (if Setting.ofKey? key = some setting then some given else none)

/-- What is given later counts, and what is given earlier where nothing is. -/
theorem lastGiven_append (a b : List (Datum × Datum)) (setting : Setting) :
    lastGiven (a ++ b) setting = (lastGiven b setting).or (lastGiven a setting) := by
  induction a with
  | nil => exact (Option.or_none).symm
  | cons entry a ih => rw [List.cons_append, lastGiven, lastGiven, ih, Option.or_assoc]

theorem setAll_cons (hkey : Setting.ofKey? key = some setting) :
    s.setAll room ((key, given) :: values) =
      s.set room setting given >>= (·.setAll room values) := by
  rw [setAll, hkey]

/-- Entries in a row are put one list after the other. -/
theorem setAll_append (room : Nat) (s : Settings) (a b : List (Datum × Datum)) :
    s.setAll room (a ++ b) = s.setAll room a >>= (·.setAll room b) := by
  induction a generalizing s with
  | nil => rfl
  | cons entry a ih =>
    obtain ⟨key, given⟩ := entry
    cases hkey : Setting.ofKey? key with
    | none => simp only [List.cons_append, setAll, hkey]; rfl
    | some setting =>
      rw [List.cons_append, setAll_cons hkey, setAll_cons hkey]
      cases s.set room setting given with
      | error e => rfl
      | ok s₁ => exact ih s₁

/-- One datum more in front is what its setting becomes first. -/
theorem becomes_set {s₁ : Settings} (h : s.set room setting given = .ok s₁)
    (hkey : Setting.ofKey? key = some setting) (other : Setting) :
    other.Becomes (if Setting.ofKey? key = some other then some given else none)
      (s.datum other) (s₁.datum other) := by
  by_cases he : other = setting
  · rw [he, if_pos hkey]
    exact takes_of_set h
  · rw [if_neg fun hk => he (Option.some.inj (hk.symm.trans hkey))]
    exact datum_set h he

/-- **If all entries could be put, they fit, and each setting became what was given last for
it.** -/
theorem becomes_of_setAll (h : s.setAll room values = .ok s') :
    (∀ entry ∈ values, Fits entry) ∧
      ∀ setting : Setting,
        setting.Becomes (lastGiven values setting) (s.datum setting) (s'.datum setting) := by
  induction values generalizing s with
  | nil =>
    cases h
    exact ⟨nofun, fun _ => rfl⟩
  | cons entry values ih =>
    obtain ⟨key, given⟩ := entry
    cases hkey : Setting.ofKey? key with
    | none =>
      simp only [setAll, hkey] at h
      cases h
    | some setting =>
      rw [setAll_cons hkey] at h
      obtain ⟨s₁, hs₁, hrest⟩ := bind_eq_ok.1 h
      obtain ⟨hfits, hbecomes⟩ := ih hrest
      refine ⟨List.forall_mem_cons.2 ⟨⟨setting, _, hkey, takes_of_set hs₁⟩, hfits⟩, fun other => ?_⟩
      exact (becomes_set hs₁ hkey other).trans (hbecomes other)

/-- Entries that fit can be put. -/
theorem exists_setAll (room : Nat) (s : Settings) (h : ∀ entry ∈ values, Fits entry) :
    ∃ s', s.setAll room values = .ok s' := by
  induction values generalizing s with
  | nil => exact ⟨s, rfl⟩
  | cons entry values ih =>
    obtain ⟨⟨setting, value, hkey, htakes⟩, hrest⟩ := List.forall_mem_cons.1 h
    obtain ⟨s₁, hs₁⟩ := exists_set (s := s) htakes
    obtain ⟨s', hs'⟩ := ih s₁ hrest
    exact ⟨s', (setAll_cons hkey).trans (bind_eq_ok.2 ⟨s₁, hs₁, hs'⟩)⟩

/-! ## Merging -/

/-- The keys that name no setting. -/
def unknownKeys (values : List (Datum × Datum)) : List Datum :=
  (values.map Prod.fst).filter fun key => (Setting.ofKey? key).isNone

/-- The unknown keys are those of entries that name no setting. -/
theorem mem_unknownKeys : key ∈ unknownKeys values ↔
    (∃ given, (key, given) ∈ values) ∧ Setting.ofKey? key = none := by
  simp [unknownKeys]

/-- Without unknown keys merging puts the entries one after the other. -/
theorem merged_of_known (h : unknownKeys values = []) :
    s.merged room values = s.setAll room values := by
  unfold unknownKeys at h
  rw [merged, h]

/-- With unknown keys merging fails with them, whatever their entries are. -/
theorem merged_of_unknown (h : unknownKeys values ≠ []) :
    s.merged room values = .error (unknownKeysError (unknownKeys values)) := by
  unfold unknownKeys at h ⊢
  unfold merged
  split
  · next he => exact absurd he h
  · rfl

/-- Entries that fit have known keys. -/
theorem unknownKeys_of_fits (h : ∀ entry ∈ values, Fits entry) : unknownKeys values = [] := by
  refine List.eq_nil_iff_forall_not_mem.2 fun key hkey => ?_
  obtain ⟨⟨given, hmem⟩, hnone⟩ := mem_unknownKeys.1 hkey
  obtain ⟨setting, value, hsome, -⟩ := h _ hmem
  rw [hnone] at hsome
  cases hsome

/-- Entries that fit can be merged. -/
theorem exists_merged (room : Nat) (s : Settings) (h : ∀ entry ∈ values, Fits entry) :
    ∃ s', s.merged room values = .ok s' := by
  rw [merged_of_known (unknownKeys_of_fits h)]
  exact exists_setAll room s h

/-- **What merging gives.** It succeeds exactly if every entry names a setting and fits it, and
then a setting is what the last datum given for it is taken for, or what it was. How many calls
can be nested makes no difference to that. -/
theorem merged_ok_iff : s.merged room values = .ok s' ↔
    (∀ entry ∈ values, Fits entry) ∧
      ∀ setting : Setting,
        setting.Becomes (lastGiven values setting) (s.datum setting) (s'.datum setting) := by
  constructor
  · intro h
    by_cases hu : unknownKeys values = []
    · rw [merged_of_known hu] at h
      exact becomes_of_setAll h
    · rw [merged_of_unknown hu] at h
      cases h
  · rintro ⟨hfits, hbecomes⟩
    obtain ⟨s₁, hs₁⟩ := exists_setAll room s hfits
    have hsame : s₁ = s' := datum_inj fun setting =>
      ((becomes_of_setAll hs₁).2 setting).unique (hbecomes setting)
    rw [merged_of_known (unknownKeys_of_fits hfits), hs₁, hsame]

/-! ## Data put together -/

/-- A text is the same key as itself only. -/
theorem sameKey_text {k : Datum} {name : String} :
    k.sameKey (.text name) = true ↔ k = .text name := by
  cases k with
  | text other => simp [Datum.sameKey, Datum.integer?]
  | float x => cases hx : x.integer? <;> simp [Datum.sameKey, Datum.integer?, hx]
  | _ => simp [Datum.sameKey, Datum.integer?]

theorem text_sameKey {name : String} :
    (Datum.text name).sameKey key = true ↔ key = .text name := by
  cases key with
  | text other => simp [Datum.sameKey, Datum.integer?, eq_comm]
  | float x => cases hx : x.integer? <;> simp [Datum.sameKey, Datum.integer?, hx]
  | _ => simp [Datum.sameKey, Datum.integer?]

/-- A key that is no text names no setting. -/
theorem ofKey?_eq_none (h : ¬ ∃ name, key = .text name) : Setting.ofKey? key = none := by
  cases key with
  | text name => exact absurd ⟨name, rfl⟩ h
  | _ => rfl

/-- What is one key names one setting. -/
theorem ofKey?_of_sameKey {k : Datum} (h : k.sameKey key = true) :
    Setting.ofKey? k = Setting.ofKey? key := by
  by_cases hk : ∃ name, k = .text name
  · obtain ⟨name, rfl⟩ := hk
    rw [text_sameKey.1 h]
  · by_cases hkey : ∃ name, key = .text name
    · obtain ⟨name, rfl⟩ := hkey
      exact absurd ⟨name, sameKey_text.1 h⟩ hk
    · rw [ofKey?_eq_none hk, ofKey?_eq_none hkey]

/-- A key names a setting exactly if it is the text of its name. -/
theorem ofKey?_eq_some_iff : Setting.ofKey? key = some setting ↔ key = .text setting.name := by
  constructor
  · intro h
    cases key with
    | text name =>
      have hname := List.find?_some h
      rw [of_decide_eq_true hname]
    | _ => cases h
  · rintro rfl
    cases setting <;> decide

/-- The entries name every setting once at most. -/
def Single (values : List (Datum × Datum)) : Prop :=
  ((values.map Prod.fst).filterMap Setting.ofKey?).Nodup

theorem Single.tail {entry : Datum × Datum} (h : Single (entry :: values)) : Single values :=
  h.sublist ((List.sublist_cons_self ..).filterMap _)

/-- Behind an entry no other one names the same setting. -/
theorem Single.head {v : Datum} (h : Single ((key, v) :: values))
    (hkey : Setting.ofKey? key = some setting) :
    ∀ entry ∈ values, Setting.ofKey? entry.1 ≠ some setting := by
  intro entry hentry he
  unfold Single at h
  rw [List.map_cons, List.filterMap_cons_some hkey] at h
  exact (List.nodup_cons.1 h).1 (List.mem_filterMap.2 ⟨entry.1, List.mem_map_of_mem hentry, he⟩)

/-- Nothing is given for a setting that no entry names. -/
theorem lastGiven_eq_none (h : ∀ entry ∈ values, Setting.ofKey? entry.1 ≠ some setting) :
    lastGiven values setting = none := by
  induction values with
  | nil => rfl
  | cons entry values ih =>
    obtain ⟨hentry, hvalues⟩ := List.forall_mem_cons.1 h
    rw [lastGiven, ih hvalues, if_neg hentry]
    rfl

/-- A value put at a key stands at an old place, or behind keys that are all others. -/
theorem keys_putEntry (key given : Datum) (values : List (Datum × Datum)) :
    (Datum.putEntry key given values).map Prod.fst = values.map Prod.fst ∨
      (Datum.putEntry key given values).map Prod.fst = values.map Prod.fst ++ [key] ∧
        ∀ k ∈ values.map Prod.fst, k.sameKey key = false := by
  induction values with
  | nil => exact .inr ⟨rfl, nofun⟩
  | cons entry values ih =>
    obtain ⟨k, v⟩ := entry
    rw [Datum.putEntry]
    by_cases hk : k.sameKey key = true
    · rw [if_pos hk]
      exact .inl rfl
    · rw [if_neg hk]
      rcases ih with hsame | ⟨happend, hother⟩
      · exact .inl (congrArg (k :: ·) hsame)
      · refine .inr ⟨congrArg (k :: ·) happend, List.forall_mem_cons.2 ⟨?_, hother⟩⟩
        exact Bool.eq_false_iff.2 hk

/-- Putting an entry names no setting twice. -/
theorem Single.putEntry (h : Single values) (key given : Datum) :
    Single (Datum.putEntry key given values) := by
  unfold Single at h ⊢
  rcases keys_putEntry key given values with hkeys | ⟨hkeys, hother⟩
  · rwa [hkeys]
  · rw [hkeys, List.filterMap_append]
    refine List.nodup_append.2 ⟨h, ?_, ?_⟩
    · cases hkey : Setting.ofKey? key <;> simp [hkey]
    · intro a ha b hb
      obtain ⟨k, hk, hka⟩ := List.mem_filterMap.1 ha
      obtain ⟨k', hk', hkb⟩ := List.mem_filterMap.1 hb
      obtain rfl := List.mem_singleton.1 hk'
      rintro rfl
      -- both keys are the name of the one setting
      rw [ofKey?_eq_some_iff] at hka hkb
      have hsame : k.sameKey k' = true := hkb ▸ sameKey_text.2 hka
      rw [hother k hk] at hsame
      cases hsame

/-- An entry that is put gives its datum, and the others give what they gave. -/
theorem lastGiven_putEntry (h : Single values) (key given : Datum) (setting : Setting) :
    lastGiven (Datum.putEntry key given values) setting =
      if Setting.ofKey? key = some setting then some given else lastGiven values setting := by
  induction values with
  | nil => rfl
  | cons entry values ih =>
    obtain ⟨k, v⟩ := entry
    rw [Datum.putEntry]
    by_cases hk : k.sameKey key = true
    · rw [if_pos hk, lastGiven, lastGiven, ofKey?_of_sameKey hk]
      by_cases hkey : Setting.ofKey? key = some setting
      · have hnone : lastGiven values setting = none :=
          lastGiven_eq_none (h.head ((ofKey?_of_sameKey hk).trans hkey))
        rw [if_pos hkey, if_pos hkey, hnone]
        rfl
      · rw [if_neg hkey, if_neg hkey, if_neg hkey]
    · rw [if_neg hk, lastGiven, lastGiven, ih h.tail]
      by_cases hkey : Setting.ofKey? key = some setting
      · rw [if_pos hkey, if_pos hkey]
        rfl
      · rw [if_neg hkey, if_neg hkey]

/-- Putting an entry that fits leaves entries that fit. -/
theorem fits_putEntry (h : ∀ entry ∈ values, Fits entry) (hnew : Fits (key, given)) :
    ∀ entry ∈ Datum.putEntry key given values, Fits entry := by
  induction values with
  | nil => exact List.forall_mem_singleton.2 hnew
  | cons entry values ih =>
    obtain ⟨k, v⟩ := entry
    obtain ⟨hentry, hvalues⟩ := List.forall_mem_cons.1 h
    rw [Datum.putEntry]
    by_cases hk : k.sameKey key = true
    · rw [if_pos hk]
      obtain ⟨setting, value, hkey, htakes⟩ := hnew
      have hfirst : Fits (k, given) := ⟨setting, value, (ofKey?_of_sameKey hk).trans hkey, htakes⟩
      exact List.forall_mem_cons.2 ⟨hfirst, hvalues⟩
    · rw [if_neg hk]
      exact List.forall_mem_cons.2 ⟨hentry, ih hvalues⟩

/-- Entries put one after the other give what was given last. -/
theorem foldl_putEntry (h : Single values) (l : List (Datum × Datum)) (setting : Setting) :
    lastGiven (l.foldl (fun found entry => Datum.putEntry entry.1 entry.2 found) values) setting =
      (lastGiven l setting).or (lastGiven values setting) := by
  induction l generalizing values with
  | nil => rfl
  | cons entry l ih =>
    rw [List.foldl_cons, ih (h.putEntry ..), lastGiven_putEntry h, lastGiven, Option.or_assoc]
    by_cases hkey : Setting.ofKey? entry.1 = some setting
    · rw [if_pos hkey, if_pos hkey]
      rfl
    · rw [if_neg hkey, if_neg hkey]
      rfl

/-- In a mapping the last value of a key counts. -/
theorem lastGiven_ofEntries (l : List (Datum × Datum)) (setting : Setting) :
    lastGiven (Datum.ofEntries l) setting = lastGiven l setting :=
  have hempty : Single [] := List.nodup_nil
  (foldl_putEntry hempty l setting).trans Option.or_none

/-- A mapping of entries that fit has entries that fit. -/
theorem fits_ofEntries {l : List (Datum × Datum)} (h : ∀ entry ∈ l, Fits entry) :
    ∀ entry ∈ Datum.ofEntries l, Fits entry := by
  have hfold : ∀ found : List (Datum × Datum), (∀ entry ∈ found, Fits entry) →
      ∀ entry ∈ l.foldl (fun found entry => Datum.putEntry entry.1 entry.2 found) found,
        Fits entry := by
    induction l with
    | nil => exact fun found hfound => hfound
    | cons entry l ih =>
      obtain ⟨hentry, hl⟩ := List.forall_mem_cons.1 h
      exact fun found hfound => ih hl _ (fits_putEntry hfound hentry)
  exact hfold [] nofun

/-- **Data merged one after the other are data put together and merged at once.** -/
theorem merged_ofEntries {s₁ s₂ : Settings} {a b : List (Datum × Datum)} {room₁ room₂ : Nat}
    (ha : s.merged room₁ a = .ok s₁) (hb : s₁.merged room₂ b = .ok s₂) :
    s.merged room (Datum.ofEntries (a ++ b)) = .ok s₂ := by
  obtain ⟨hfitsA, hbecomesA⟩ := merged_ok_iff.1 ha
  obtain ⟨hfitsB, hbecomesB⟩ := merged_ok_iff.1 hb
  have hfits := fits_ofEntries (List.forall_mem_append.2 ⟨hfitsA, hfitsB⟩)
  refine merged_ok_iff.2 ⟨hfits, fun setting => ?_⟩
  rw [lastGiven_ofEntries, lastGiven_append]
  exact (hbecomesA setting).trans (hbecomesB setting)

/-! ## Data by the settings -/

/-- Data for some of the settings, each under its name. -/
theorem lastGiven_named (give : Setting → Option Datum) {l : List Setting} (hl : l.Nodup)
    (setting : Setting) :
    lastGiven (l.filterMap fun s => (give s).map fun given => (.text s.name, given)) setting =
      if setting ∈ l then give setting else none := by
  induction l with
  | nil => rfl
  | cons s l ih =>
    obtain ⟨hs, hrest⟩ := List.nodup_cons.1 hl
    have hkey : Setting.ofKey? (.text s.name) = some s := ofKey?_eq_some_iff.2 rfl
    by_cases he : setting = s
    · subst he
      rw [if_pos (List.mem_cons_self ..)]
      cases hgive : give setting with
      | none => rw [List.filterMap_cons_none (by rw [hgive]; rfl), ih hrest, if_neg hs]
      | some given =>
        rw [List.filterMap_cons_some (by rw [hgive]; rfl), lastGiven, ih hrest, if_neg hs,
          if_pos hkey]
        rfl
    · have hmem : setting ∈ s :: l ↔ setting ∈ l := by simp [he]
      have hne : Setting.ofKey? (.text s.name) ≠ some setting := fun hk =>
        he (Option.some.inj (hk.symm.trans hkey))
      simp only [hmem]
      cases hgive : give s with
      | none => rw [List.filterMap_cons_none (by rw [hgive]; rfl), ih hrest]
      | some given =>
        rw [List.filterMap_cons_some (by rw [hgive]; rfl), lastGiven, ih hrest, if_neg hne,
          Option.or_none]

/-- What is given for each setting by data of all of them. -/
theorem lastGiven_all (give : Setting → Option Datum) (setting : Setting) :
    lastGiven (Setting.all.filterMap fun s => (give s).map fun given => (.text s.name, given))
      setting = give setting := by
  have hmem : setting ∈ Setting.all := by cases setting <;> decide
  rw [lastGiven_named give (by decide), if_pos hmem]

end Settings

end Ember

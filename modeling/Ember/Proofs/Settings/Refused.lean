import Ember.Proofs.Settings.Merged

/-!
# How merging fails

Merging settings fails if an entry names no setting or does not fit. The failure is a refusal,
which is reported to the user, but in three cases: a key that names no setting is no text either,
or the first datum that does not fit is an infinite number in the place of a limit, or it has more
levels than there is room to show it. Then it is a fault that nobody reports (`merging_settled`).
-/

namespace Ember

/-! ## Data that can be shown -/

namespace Datum

mutual

/-- The integers in a datum. -/
def integers : Datum → List Int
  | integer value => [value]
  | list items => integersOfItems items
  | mapping entries => integersOfEntries entries
  | _ => []

/-- The integers in the items of a list. -/
def integersOfItems : List Datum → List Int
  | [] => []
  | item :: items => item.integers ++ integersOfItems items

/-- The integers in the entries of a mapping. -/
def integersOfEntries : List (Datum × Datum) → List Int
  | [] => []
  | (key, value) :: entries => key.integers ++ (value.integers ++ integersOfEntries entries)

end

mutual

/-- The levels of a datum: one for itself, and those of the highest item or entry. The offset of
a moment has levels of its own. -/
def levels : Datum → Nat
  | moment value => value.offsetLevels + 1
  | list items => levelsOfItems items + 1
  | mapping entries => levelsOfEntries entries + 1
  | _ => 1

/-- The levels of the highest item of a list. -/
def levelsOfItems : List Datum → Nat
  | [] => 0
  | item :: items => max item.levels (levelsOfItems items)

/-- The levels of the highest key or value of a mapping. -/
def levelsOfEntries : List (Datum × Datum) → Nat
  | [] => 0
  | (key, value) :: entries => max key.levels (max value.levels (levelsOfEntries entries))

end

/-- Whether no integer in the datum has more digits than can be shown. -/
def Short (d : Datum) : Prop :=
  ∀ n ∈ d.integers, n.natAbs < Nat.pow 10 maxDigits

/-- What is shown comes out exactly if there is room for so many levels; otherwise they are too
many. -/
def ShownIn (room levels : Nat) {α : Type} (shown : Except Fault α) : Prop :=
  if levels ≤ room then ∃ text, shown = .ok text else shown = .error (.nestedTooDeep "repr")

section

variable {α β γ : Type} {room l m : Nat} {x : Except Fault α} {y : Except Fault β}

/-- What comes out anyway is shown if there is room for its levels. -/
theorem shownIn_ok {a : α} (hl : l ≤ room) : ShownIn room l (.ok a : Except Fault α) := by
  rw [ShownIn, if_pos hl]
  exact ⟨a, rfl⟩

/-- What is put around the levels of its parts takes one more. -/
theorem ShownIn.map (hx : ShownIn room l x) (f : α → γ) :
    ShownIn (room + 1) (l + 1) (do return f (← x)) := by
  unfold ShownIn at hx ⊢
  simp only [Nat.add_le_add_iff_right]
  split at hx
  · next hl =>
    obtain ⟨a, rfl⟩ := hx
    rw [if_pos hl]
    exact ⟨f a, rfl⟩
  · next hl =>
    rw [if_neg hl, hx]
    rfl

/-- Of two parts that are shown in turn the higher one counts. -/
theorem ShownIn.both (hx : ShownIn room l x) (hy : ShownIn room m y) (f : α → β → γ) :
    ShownIn room (max l m) (do return f (← x) (← y)) := by
  unfold ShownIn at hx hy ⊢
  by_cases hl : l ≤ room
  · rw [if_pos hl] at hx
    obtain ⟨a, rfl⟩ := hx
    by_cases hm : m ≤ room
    · rw [if_pos hm] at hy
      obtain ⟨b, rfl⟩ := hy
      rw [if_pos (Nat.max_le.2 ⟨hl, hm⟩)]
      exact ⟨f a b, rfl⟩
    · rw [if_neg hm] at hy
      rw [if_neg fun hall => hm (Nat.max_le.1 hall).2, hy]
      rfl
  · rw [if_neg hl] at hx
    rw [if_neg fun hall => hl (Nat.max_le.1 hall).1, hx]
    rfl

end

/-- An integer that is not too long can be shown. -/
theorem integerText_of_short {n : Int} (h : n.natAbs < Nat.pow 10 maxDigits) :
    integerText n = .ok (toString n) := by
  rw [integerText, if_pos h]

/-- Without room nothing can be shown. -/
theorem describe_zero (d : Datum) : d.describe 0 = .error (.nestedTooDeep "repr") := by
  cases d <;> rfl

theorem levels_pos (d : Datum) : 0 < d.levels := by
  cases d <;> simp [levels]

mutual

/-- **A datum is shown exactly if there is room for its levels**, where its integers are short. -/
theorem describe_shownIn : ∀ {d : Datum}, d.Short → ∀ room, ShownIn room d.levels (d.describe room)
  | d, _, 0 => by
    rw [ShownIn, if_neg (Nat.not_le.2 d.levels_pos)]
    exact d.describe_zero
  | null, _, room + 1 => shownIn_ok (Nat.le_add_left 1 room)
  | boolean _, _, room + 1 => shownIn_ok (Nat.le_add_left 1 room)
  | integer n, h, room + 1 => by
    have htext : (integer n).describe (room + 1) = .ok (toString n) :=
      integerText_of_short (h n (List.mem_singleton.2 rfl))
    rw [htext]
    exact shownIn_ok (Nat.le_add_left 1 room)
  | float _, _, room + 1 => shownIn_ok (Nat.le_add_left 1 room)
  | text _, _, room + 1 => shownIn_ok (Nat.le_add_left 1 room)
  | date _, _, room + 1 => shownIn_ok (Nat.le_add_left 1 room)
  | moment value, _, room + 1 => by
    rw [ShownIn, levels, describe]
    by_cases hroom : value.offsetLevels ≤ room
    · rw [if_pos (Nat.add_le_add_right hroom 1), if_pos hroom]
      exact ⟨_, rfl⟩
    · rw [if_neg fun hle => hroom (Nat.le_of_add_le_add_right hle), if_neg hroom]
  | list items, h, room + 1 => by
    have hitems : ∀ n ∈ integersOfItems items, n.natAbs < Nat.pow 10 maxDigits := h
    exact (describeItems_shownIn hitems room).map _
  | mapping entries, h, room + 1 => by
    have hentries : ∀ n ∈ integersOfEntries entries, n.natAbs < Nat.pow 10 maxDigits := h
    exact (describeEntries_shownIn hentries room).map _

theorem describeItems_shownIn : ∀ {items : List Datum},
    (∀ n ∈ integersOfItems items, n.natAbs < Nat.pow 10 maxDigits) →
      ∀ room, ShownIn room (levelsOfItems items) (describeItems items room)
  | [], _, room => shownIn_ok (Nat.zero_le room)
  | item :: items, h, room => by
    obtain ⟨hitem, hitems⟩ := List.forall_mem_append.1 h
    have hfirst := describe_shownIn (d := item) hitem room
    exact hfirst.both (describeItems_shownIn hitems room) _

theorem describeEntries_shownIn : ∀ {entries : List (Datum × Datum)},
    (∀ n ∈ integersOfEntries entries, n.natAbs < Nat.pow 10 maxDigits) →
      ∀ room, ShownIn room (levelsOfEntries entries) (describeEntries entries room)
  | [], _, room => shownIn_ok (Nat.zero_le room)
  | (key, value) :: entries, h, room => by
    obtain ⟨hkey, hrest⟩ := List.forall_mem_append.1 h
    obtain ⟨hvalue, hentries⟩ := List.forall_mem_append.1 hrest
    have hfirst := describe_shownIn (d := key) hkey room
    have hsecond := describe_shownIn (d := value) hvalue room
    have hentry := hfirst.both hsecond fun shown given => shown ++ ": " ++ given
    have hall := hentry.both (describeEntries_shownIn hentries room) List.cons
    rw [levelsOfEntries, ← Nat.max_assoc, describeEntries]
    cases hk : key.describe room <;> cases hv : value.describe room <;> rw [hk, hv] at hall <;>
      exact hall

end

end Datum

namespace Settings

variable {s : Settings} {values : List (Datum × Datum)} {setting : Setting} {room : Nat}

/-! ## Keys that name no setting -/

theorem mapM_keyText?_map (names : List String) :
    (names.map Datum.text).mapM keyText? = some names := by
  induction names with
  | nil => rfl
  | cons name names ih => simp [keyText?, ih]

/-- Keys are all texts, or one of them is not and they cannot all be named. -/
theorem keyTexts_cases (keys : List Datum) :
    (∃ names : List String, keys = names.map .text) ∨
      (∃ key ∈ keys, keyText? key = none) ∧ keys.mapM keyText? = none := by
  induction keys with
  | nil => exact .inl ⟨[], rfl⟩
  | cons key keys ih =>
    cases hkey : keyText? key with
    | none => exact .inr ⟨⟨key, List.mem_cons_self .., hkey⟩, by simp [hkey]⟩
    | some name =>
      rcases ih with ⟨names, rfl⟩ | ⟨⟨other, hmem, hother⟩, hnone⟩
      · left
        cases key with
        | text text => exact ⟨text :: names, rfl⟩
        | _ => cases hkey
      · exact .inr ⟨⟨other, List.mem_cons_of_mem _ hmem, hother⟩, by simp [hkey, hnone]⟩

/-- A key that names no setting is no text either. -/
def Nameless (values : List (Datum × Datum)) : Prop :=
  ∃ key ∈ unknownKeys values, keyText? key = none

/-- The first entry that does not fit has an infinite number for a limit. -/
def Overflows (values : List (Datum × Datum)) : Prop :=
  unknownKeys values = [] ∧ ∃ before entry after, values = before ++ entry :: after ∧
    (∀ e ∈ before, Fits e) ∧ ∃ setting, Setting.ofKey? entry.1 = some setting ∧
      setting.isLimit ∧ entry.2.IsInfinite

/-- The first entry that does not fit has more levels than there is room for. -/
def Towers (room : Nat) (values : List (Datum × Datum)) : Prop :=
  unknownKeys values = [] ∧ ∃ before entry after, values = before ++ entry :: after ∧
    (∀ e ∈ before, Fits e) ∧ ¬ Fits entry ∧ room < entry.2.levels

/-- What a refusal tells about the entries: all the keys that name no setting in order, or the
first entry that does not fit, with what was given shown. -/
inductive Explains (room : Nat) (values : List (Datum × Datum)) : SettingsCause → Prop
  | unknown {names : List String} : names ≠ [] → unknownKeys values = names.map .text →
      Explains room values (.unknownKeys (names.mergeSort fun a b => a ≤ b))
  | misfit {before after : List (Datum × Datum)} {entry : Datum × Datum} {setting : Setting}
      {cause : String → SettingsCause} {shown : String} : values = before ++ entry :: after →
      (∀ e ∈ before, Fits e) → Setting.ofKey? entry.1 = some setting →
      (∀ value, ¬ setting.Takes entry.2 value) → cause ∈ setting.causes →
      entry.2.describe room = .ok shown → Explains room values (cause shown)

/-- Unknown keys that cannot be named make merging fail with a fault. -/
theorem merged_nameless (h : Nameless values) :
    s.merged room values = .error (.fault (keysFault (unknownKeys values))) := by
  obtain ⟨key, hmem, hkey⟩ := h
  rw [merged_of_unknown (List.ne_nil_of_mem hmem), unknownKeysError]
  rcases keyTexts_cases (unknownKeys values) with ⟨names, hnames⟩ | ⟨-, hnone⟩
  · rw [hnames] at hmem
    obtain ⟨name, -, rfl⟩ := List.mem_map.1 hmem
    cases hkey
  · rw [hnone]

/-- Unknown keys that are texts are named in a refusal. -/
theorem merged_unnamed (hu : unknownKeys values ≠ []) (h : ¬ Nameless values) :
    ∃ cause, Explains room values cause ∧ s.merged room values = .error (.refused cause) := by
  rcases keyTexts_cases (unknownKeys values) with ⟨names, hnames⟩ | ⟨hnone, -⟩
  · have hne : names ≠ [] := by
      rintro rfl
      exact hu hnames
    refine ⟨_, .unknown hne hnames, ?_⟩
    rw [merged_of_unknown hu, unknownKeysError, hnames, mapM_keyText?_map]
  · exact absurd hnone h

/-! ## Entries that do not fit -/

/-- An entry behind those that fit decides with its setting. -/
theorem merged_of_first {before after : List (Datum × Datum)} {entry : Datum × Datum}
    {error : SettingsError} (hu : unknownKeys (before ++ entry :: after) = [])
    (hbefore : ∀ e ∈ before, Fits e) (hkey : Setting.ofKey? entry.1 = some setting)
    (herror : ∀ s : Settings, s.set room setting entry.2 = .error error) :
    s.merged room (before ++ entry :: after) = .error error := by
  obtain ⟨s₁, hs₁⟩ := exists_setAll room s hbefore
  rw [merged_of_known hu, setAll_append, hs₁]
  change s₁.setAll room ((entry.1, entry.2) :: after) = .error error
  rw [setAll_cons hkey, herror]
  rfl

/-- An infinite limit behind entries that fit makes merging fail with a fault. -/
theorem merged_overflows (h : Overflows values) :
    s.merged room values = .error (.fault .infinite) := by
  obtain ⟨hu, before, entry, after, rfl, hbefore, setting, hkey, hl, hi⟩ := h
  exact merged_of_first hu hbefore hkey fun s => set_infinite hl hi

/-- Either all entries fit or one does not. -/
theorem fits_or_misfit (values : List (Datum × Datum)) :
    (∀ entry ∈ values, Fits entry) ∨ ∃ entry ∈ values, ¬ Fits entry := by
  by_cases h : ∃ entry ∈ values, ¬ Fits entry
  · exact .inr h
  · left
    intro entry hentry
    exact Classical.byContradiction fun hfits => h ⟨entry, hentry, hfits⟩

/-- Where an entry does not fit there is a first one. -/
theorem exists_first_misfit (h : ∃ entry ∈ values, ¬ Fits entry) :
    ∃ before entry after, values = before ++ entry :: after ∧ (∀ e ∈ before, Fits e) ∧
      ¬ Fits entry := by
  induction values with
  | nil =>
    obtain ⟨entry, hmem, -⟩ := h
    cases hmem
  | cons first values ih =>
    by_cases hfirst : Fits first
    · obtain ⟨entry, hmem, hentry⟩ := h
      rcases List.mem_cons.1 hmem with rfl | hmem
      · exact absurd hfirst hentry
      · obtain ⟨before, entry, after, rfl, hbefore, hentry⟩ := ih ⟨entry, hmem, hentry⟩
        exact ⟨first :: before, entry, after, rfl, List.forall_mem_cons.2 ⟨hfirst, hbefore⟩, hentry⟩
    · exact ⟨[], first, values, rfl, nofun, hfirst⟩

/-- An entry that does not fit has a setting that its datum does not suit, where every key names
a setting. -/
theorem misfit_setting (hu : unknownKeys values = []) {entry : Datum × Datum}
    (hmem : entry ∈ values) (hentry : ¬ Fits entry) :
    ∃ setting, Setting.ofKey? entry.1 = some setting ∧ ∀ value, ¬ setting.Takes entry.2 value := by
  cases hkey : Setting.ofKey? entry.1 with
  | none =>
    have hunknown : entry.1 ∈ unknownKeys values := mem_unknownKeys.2 ⟨⟨entry.2, hmem⟩, hkey⟩
    rw [hu] at hunknown
    cases hunknown
  | some setting => exact ⟨setting, rfl, fun value hv => hentry ⟨setting, value, hkey, hv⟩⟩

/-- The first entry that does not fit is refused with what was given shown, unless it is an
infinite limit or has too many levels. -/
theorem merged_misfit (hu : unknownKeys values = []) (ho : ¬ Overflows values)
    (ht : ¬ Towers room values) (hshort : ∀ entry ∈ values, entry.2.Short)
    (h : ∃ entry ∈ values, ¬ Fits entry) :
    ∃ cause, Explains room values cause ∧ s.merged room values = .error (.refused cause) := by
  obtain ⟨before, entry, after, rfl, hbefore, hentry⟩ := exists_first_misfit h
  have hmem : entry ∈ before ++ entry :: after := by simp
  obtain ⟨setting, hkey, htakes⟩ := misfit_setting hu hmem hentry
  have hi : ¬ (setting.isLimit ∧ entry.2.IsInfinite) := fun hi =>
    ho ⟨hu, before, entry, after, rfl, hbefore, setting, hkey, hi⟩
  have hlow : entry.2.levels ≤ room := Nat.le_of_not_lt fun hhigh =>
    ht ⟨hu, before, entry, after, rfl, hbefore, hentry, hhigh⟩
  have hshown := Datum.describe_shownIn (hshort entry hmem) room
  rw [Datum.ShownIn, if_pos hlow] at hshown
  obtain ⟨shown, hshown⟩ := hshown
  obtain ⟨cause, hcause, hset⟩ := set_refused htakes hi
  refine ⟨cause shown, .misfit rfl hbefore hkey htakes hcause hshown, ?_⟩
  refine merged_of_first hu hbefore hkey fun s => ?_
  rw [hset s, SettingsError.refusal, hshown]

/-- What has too many levels cannot be shown in a refusal, and so there is none. -/
theorem merged_towers (hshort : ∀ entry ∈ values, entry.2.Short) (h : Towers room values) :
    ∃ fault, s.merged room values = .error (.fault fault) := by
  obtain ⟨hu, before, entry, after, rfl, hbefore, hentry, hhigh⟩ := h
  have hmem : entry ∈ before ++ entry :: after := by simp
  obtain ⟨setting, hkey, htakes⟩ := misfit_setting hu hmem hentry
  by_cases hi : setting.isLimit ∧ entry.2.IsInfinite
  · exact ⟨_, merged_of_first hu hbefore hkey fun s => set_infinite hi.1 hi.2⟩
  · have hshown := Datum.describe_shownIn (hshort entry hmem) room
    rw [Datum.ShownIn, if_neg (Nat.not_le.2 hhigh)] at hshown
    obtain ⟨cause, -, hset⟩ := set_refused htakes hi
    refine ⟨.unshown (.nestedTooDeep "repr"), merged_of_first hu hbefore hkey fun s => ?_⟩
    rw [hset s, SettingsError.refusal, hshown]

/-- A failure that is no refusal comes of keys that cannot be named, of an infinite number, or of
too many levels. -/
def Escapes (room : Nat) (values : List (Datum × Datum)) : Prop :=
  Nameless values ∨ Overflows values ∨ Towers room values

/-- Where the failure escapes there is a fault. -/
theorem merged_escapes (hshort : ∀ entry ∈ values, entry.2.Short) (h : Escapes room values) :
    ∃ fault, s.merged room values = .error (.fault fault) := by
  rcases h with h | h | h
  · exact ⟨_, merged_nameless h⟩
  · exact ⟨_, merged_overflows h⟩
  · exact merged_towers hshort h

/-- What does not fit is refused where the failure does not escape. -/
theorem merged_refused (hshort : ∀ entry ∈ values, entry.2.Short)
    (h : ∃ entry ∈ values, ¬ Fits entry) (he : ¬ Escapes room values) :
    ∃ cause, Explains room values cause ∧ s.merged room values = .error (.refused cause) := by
  by_cases hu : unknownKeys values = []
  · exact merged_misfit hu (fun ho => he (.inr (.inl ho))) (fun ht => he (.inr (.inr ht))) hshort h
  · exact merged_unnamed hu fun hn => he (.inl hn)

end Settings

open Settings

/-- **How merging ends.** Settings come out exactly if every entry names a setting and fits it.
Otherwise merging is refused, and the refusal tells which keys are unknown or what does not
fit, unless the failure escapes: a key that names no setting is no text either, or the first
datum that does not fit is an infinite number in the place of a limit, or it has more levels
than calls can be nested. Integers that are too long to be shown are left aside. -/
theorem merging_settled (room : Nat) (s : Settings) (values : List (Datum × Datum))
    (hshort : ∀ entry ∈ values, entry.2.Short) :
    ((∃ s', s.merged room values = .ok s') ↔ ∀ entry ∈ values, Fits entry) ∧
    ((∃ cause, Explains room values cause ∧ s.merged room values = .error (.refused cause)) ↔
      (∃ entry ∈ values, ¬ Fits entry) ∧ ¬ Escapes room values) ∧
    ((∃ fault, s.merged room values = .error (.fault fault)) ↔ Escapes room values) := by
  have hok : (∃ s', s.merged room values = .ok s') ↔ ∀ entry ∈ values, Fits entry :=
    ⟨fun ⟨s', h⟩ => (merged_ok_iff.1 h).1, exists_merged room s⟩
  -- one of three things happens, and no two of them together
  refine ⟨hok, ⟨?_, fun ⟨h, he⟩ => merged_refused hshort h he⟩, ⟨?_, merged_escapes hshort⟩⟩
  · rintro ⟨cause, -, h⟩
    refine ⟨(fits_or_misfit values).resolve_left fun hall => ?_, fun he => ?_⟩
    · obtain ⟨s', hs'⟩ := hok.2 hall
      rw [hs'] at h
      cases h
    · obtain ⟨fault, hfault⟩ := merged_escapes (s := s) hshort he
      rw [hfault] at h
      cases h
  · rintro ⟨fault, h⟩
    refine Classical.byContradiction fun he => ?_
    rcases fits_or_misfit values with hall | hmis
    · obtain ⟨s', hs'⟩ := hok.2 hall
      rw [hs'] at h
      cases h
    · obtain ⟨cause, -, hcause⟩ := merged_refused (s := s) hshort hmis he
      rw [hcause] at h
      cases h

/-- An infinite limit behind an entry that fits. -/
theorem merging_settled_infinite :
    let values : List (Datum × Datum) :=
      [(.text "prompt", .text "> "), (.text "max_errors", .float (.infinite false))]
    (∀ entry ∈ values, entry.2.Short) ∧
      ∃ fault, ({} : Settings).merged 1000 values = .error (.fault fault) := by
  have hshort : ∀ entry ∈ [(Datum.text "prompt", Datum.text "> "),
      (.text "max_errors", .float (.infinite false))], entry.2.Short := by
    simp [Datum.Short, Datum.integers]
  obtain ⟨-, -, hescapes⟩ := merging_settled 1000 {} _ hshort
  have hover : Overflows [(.text "prompt", .text "> "),
      (.text "max_errors", .float (.infinite false))] := by
    refine ⟨rfl, [_], _, [], rfl, ?_, .maxErrors, rfl, rfl, trivial⟩
    exact List.forall_mem_singleton.2 ⟨.prompt, _, rfl, .prompt "> "⟩
  exact ⟨hshort, hescapes.2 (.inr (.inl hover))⟩

/-- Neither settings nor a refusal come of an infinite limit, or of an unknown key that is a
number. -/
theorem infinite_limit_escapes :
    ({} : Settings).merged 1000 [(.text "max_errors", .float (.infinite false))] =
      .error (.fault .infinite) ∧
    ({} : Settings).merged 1000 [(.integer 1, .text "x")] =
      .error (.fault (.keyNotText "int")) :=
  ⟨rfl, rfl⟩

end Ember

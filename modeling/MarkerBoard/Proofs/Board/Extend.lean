import MarkerBoard.Board.Defaults
import MarkerBoard.Board.Override
import MarkerBoard.Proofs.Checked.Read

/-!
# Exclusions of the environment, checked

The exclusions of the environment are added before the settings are checked. Where there is a list
to add them to, that makes no difference to the check: the settings are valid afterwards if and only
if they were valid before, and they have the same columns, labels and extra fields.

Main results:

* `Settings.exists_override` — extending exclusions that are lists.
* `Settings.extensible_of_read` — valid settings have such exclusions.
* `Settings.exists_override_default` — the defaults can be extended in every environment.
-/
namespace MarkerBoard

namespace Reader

variable {α : Type} {key : String} {r : Reader α} {default a : α} {fields : Keyed Json}

/-! ## Fields with a default -/

/-- A field with a default is valid if it is missing, or if its value is valid. -/
theorem optional_eq_valid_iff : optional key r default fields = .valid a ↔
    (Keyed.get? key.toList fields = none ∧ a = default) ∨
      ∃ v, Keyed.get? key.toList fields = some v ∧ r v = .valid a := by
  unfold optional
  cases hget : Keyed.get? key.toList fields with
  | none =>
    constructor
    · intro h
      cases h
      exact .inl ⟨rfl, rfl⟩
    · rintro (⟨-, rfl⟩ | ⟨v, hv, -⟩)
      · rfl
      · cases hv
  | some v => simp [Checked.under_eq_valid_iff]

theorem optional_congr {fields' : Keyed Json}
    (h : Keyed.get? key.toList fields' = Keyed.get? key.toList fields) :
    optional key r default fields' = optional key r default fields := by
  unfold optional
  rw [h]

/-- Setting a field that a record has of its own leaves the others. -/
theorem others_put {keys : List String} {k : Text} (h : k ∈ keys.map String.toList) (v : Json)
    (fields : Keyed Json) : others keys (Keyed.put k v fields) = others keys fields := by
  have hk : (!(keys.map String.toList).contains k) = false := by simpa using h
  induction fields with
  | nil => simp only [Keyed.put, others, List.filter_cons, hk, List.filter_nil]; rfl
  | cons e fields ih =>
    unfold others at ih
    unfold Keyed.put others
    split
    · next he =>
      -- the field is set in place, and is left out before and after
      rw [List.filter_cons, List.filter_cons, he, hk]
      rfl
    · rw [List.filter_cons, List.filter_cons, ih]

theorem text_eq_valid_iff {v : Json} {t : Text} : text v = .valid t ↔ v = .str t := by
  constructor
  · intro h
    cases v with
    | str u =>
      cases h
      rfl
    | _ => cases h
  · rintro rfl
    exact text_str t

/-- A list that is read as a list of texts has nothing but these texts in it. -/
theorem list_text_eq_valid_iff {v : Json} {ts : List Text} :
    list text v = .valid ts ↔ v = .arr (ts.map .str) := by
  have hlist : ∀ vs, List.Forall₂ (fun u t => text u = .valid t) vs ts ↔ vs = ts.map .str := by
    intro vs
    rw [← List.forall₂_eq_eq_eq, List.forall₂_map_right_iff]
    simp only [text_eq_valid_iff]
  simp only [list_eq_valid_iff, hlist]
  exact ⟨fun ⟨_, hv, h⟩ => h ▸ hv, fun h => ⟨_, h, rfl⟩⟩

end Reader

/-! ## Lists of names -/

/-- There is a list under a key, or nothing at all. -/
def Keyed.ListAt (key : String) (fields : Keyed Json) : Prop :=
  ∀ v, Keyed.get? key.toList fields = some v → ∃ vs, v = .arr vs

namespace Settings

variable {env : Keyed Text} {variableName : Text} {key : String} {scan fields : Keyed Json}

/-- The names that a variable adds. -/
def addedNames (env : Keyed Text) (variableName : Text) : List Text :=
  ((valueOf? env variableName).map commaList).getD []

/-- The names under a key. -/
def namesAt (key : String) (scan : Keyed Json) : Checked (List Text) :=
  Reader.optional key (.list .text) [] scan

theorem listAt_of_namesAt {ts : List Text} (h : namesAt key scan = .valid ts) :
    Keyed.ListAt key scan := by
  intro v hv
  rcases Reader.optional_eq_valid_iff.1 h with ⟨hnone, -⟩ | ⟨v', hv', hread⟩
  · rw [hnone] at hv
    cases hv
  · cases hv.symm.trans hv'
    exact ⟨_, Reader.list_text_eq_valid_iff.1 hread⟩

/-- The names under a key are read if and only if nothing but names is there. A key without a value
counts as one with an empty list. -/
theorem namesAt_eq_valid_iff {old : List Json} {ts : List Text}
    (hold : (Keyed.get? key.toList scan).getD (.arr []) = .arr old) :
    namesAt key scan = .valid ts ↔ old = ts.map .str := by
  rw [namesAt, Reader.optional_eq_valid_iff]
  cases hget : Keyed.get? key.toList scan with
  | none =>
    rw [hget] at hold
    cases hold
    simp
  | some v =>
    rw [hget] at hold
    cases hold
    simp [Reader.list_text_eq_valid_iff]

/-- Names are added to a list, whatever else is in it. The list holds names afterwards if and only
if it did before. -/
theorem exists_extendList (h : valueOf? env variableName ≠ none → Keyed.ListAt key scan) :
    ∃ scan', extendList env variableName key.toList scan = .ok scan' ∧
      (∀ other, other ≠ key.toList → Keyed.get? other scan' = Keyed.get? other scan) ∧
      (∀ ts, namesAt key scan = .valid ts →
        namesAt key scan' = .valid (ts ++ addedNames env variableName)) ∧
      ∀ us, namesAt key scan' = .valid us → ∃ ts, namesAt key scan = .valid ts := by
  unfold extendList
  cases hvalue : valueOf? env variableName with
  | none =>
    -- without a value nothing is added
    have hnone : addedNames env variableName = [] := by
      unfold addedNames
      rw [hvalue]
      rfl
    refine ⟨scan, rfl, fun _ _ => rfl, fun ts hts => ?_, fun us hus => ⟨us, hus⟩⟩
    rw [hnone, List.append_nil, hts]
  | some value =>
    have hadded : addedNames env variableName = commaList value := by
      unfold addedNames
      rw [hvalue]
      rfl
    -- what is under the key counts as a list
    obtain ⟨old, hold⟩ : ∃ old, (Keyed.get? key.toList scan).getD (.arr []) = .arr old := by
      cases hget : Keyed.get? key.toList scan with
      | none => exact ⟨[], rfl⟩
      | some v => exact h (by rw [hvalue]; simp) v hget
    have helements : ((Keyed.get? key.toList scan).getD (.arr [])).elements = .ok old := by
      rw [hold]
      rfl
    set extended := Keyed.put key.toList (.arr (old ++ (commaList value).map .str)) scan
    have hnew : (Keyed.get? key.toList extended).getD (.arr []) =
        .arr (old ++ (commaList value).map .str) := by
      rw [Keyed.get?_put, if_pos rfl]
      rfl
    refine ⟨extended, ?_, ?_, ?_, ?_⟩
    · dsimp only
      rw [helements]
      rfl
    · intro other hother
      rw [Keyed.get?_put, if_neg (Ne.symm hother)]
    · intro ts hts
      rw [namesAt_eq_valid_iff hold] at hts
      rw [namesAt_eq_valid_iff hnew, hadded, hts, List.map_append]
    · intro us hus
      -- the old names are some of the new ones
      rw [namesAt_eq_valid_iff hnew] at hus
      obtain ⟨ts, rest, -, hts, -⟩ := List.append_eq_map_iff.1 hus
      exact ⟨ts, (namesAt_eq_valid_iff hold).2 hts.symm⟩

end Settings

/-! ## Exclusions -/

/-- The exclusions with those of an environment added. -/
def Exclusions.extended (e : Exclusions) (env : Keyed Text) : Exclusions :=
  ⟨e.directories ++ Settings.addedNames env Settings.directoriesVariable,
    e.files ++ Settings.addedNames env Settings.filesVariable⟩

theorem Exclusions.read_eq_valid_iff {scan : Keyed Json} {e : Exclusions} :
    Exclusions.read (.obj scan) = .valid e ↔
      Settings.namesAt "exclude_directories" scan = .valid e.directories ∧
      Settings.namesAt "exclude_files" scan = .valid e.files := by
  show (mk <$> Settings.namesAt "exclude_directories" scan <*>
    Settings.namesAt "exclude_files" scan) = .valid e ↔ _
  rw [Checked.seq_eq_valid_iff]
  constructor
  · rintro ⟨_, hmap, fs, hfs, rfl⟩
    obtain ⟨ds, hds, rfl⟩ := Checked.map_eq_valid_iff.1 hmap
    exact ⟨hds, hfs⟩
  · rintro ⟨hds, hfs⟩
    exact ⟨_, Checked.map_eq_valid_iff.2 ⟨_, hds, rfl⟩, _, hfs, rfl⟩

namespace Settings

variable {env : Keyed Text} {scan fields : Keyed Json} {s : Settings}

/-- The lists that an environment adds to are lists. -/
def Extensible (env : Keyed Text) (fields : Keyed Json) : Prop :=
  ∃ scan, Keyed.get? "code_scan_settings".toList fields = some (.obj scan) ∧
    (valueOf? env directoriesVariable ≠ none → Keyed.ListAt "exclude_directories" scan) ∧
    (valueOf? env filesVariable ≠ none → Keyed.ListAt "exclude_files" scan)

/-- Both lists of exclusions are extended, one after the other. -/
theorem exists_extended
    (hdirs : valueOf? env directoriesVariable ≠ none → Keyed.ListAt "exclude_directories" scan)
    (hfiles : valueOf? env filesVariable ≠ none → Keyed.ListAt "exclude_files" scan) :
    ∃ scan₁ scan₂,
      extendList env directoriesVariable "exclude_directories".toList scan = .ok scan₁ ∧
      extendList env filesVariable "exclude_files".toList scan₁ = .ok scan₂ ∧
      (∀ e, Exclusions.read (.obj scan) = .valid e →
        Exclusions.read (.obj scan₂) = .valid (e.extended env)) ∧
      ∀ e₂, Exclusions.read (.obj scan₂) = .valid e₂ →
        ∃ e, Exclusions.read (.obj scan) = .valid e := by
  have hne : "exclude_files".toList ≠ "exclude_directories".toList := by decide
  obtain ⟨scan₁, hok₁, hkept₁, hto₁, hfrom₁⟩ := exists_extendList hdirs
  -- the second list is not touched by the first extension
  have hfiles₁ : namesAt "exclude_files" scan₁ = namesAt "exclude_files" scan :=
    Reader.optional_congr (hkept₁ _ hne)
  have hlist₁ : valueOf? env filesVariable ≠ none → Keyed.ListAt "exclude_files" scan₁ :=
    fun h v hv => hfiles h v (by rw [← hkept₁ _ hne, hv])
  obtain ⟨scan₂, hok₂, hkept₂, hto₂, hfrom₂⟩ := exists_extendList hlist₁
  -- nor the first one by the second extension
  have hdirs₂ : namesAt "exclude_directories" scan₂ = namesAt "exclude_directories" scan₁ :=
    Reader.optional_congr (hkept₂ _ (Ne.symm hne))
  refine ⟨scan₁, scan₂, hok₁, hok₂, fun e he => ?_, fun e₂ he₂ => ?_⟩
  · obtain ⟨hds, hfs⟩ := Exclusions.read_eq_valid_iff.1 he
    refine Exclusions.read_eq_valid_iff.2 ⟨?_, ?_⟩
    · rw [hdirs₂, hto₁ _ hds]
      rfl
    · rw [hto₂ _ (by rw [hfiles₁, hfs])]
      rfl
  · obtain ⟨hds, hfs⟩ := Exclusions.read_eq_valid_iff.1 he₂
    rw [hdirs₂] at hds
    obtain ⟨ds, hds⟩ := hfrom₁ _ hds
    obtain ⟨fs, hfs⟩ := hfrom₂ _ hfs
    rw [hfiles₁] at hfs
    exact ⟨⟨ds, fs⟩, Exclusions.read_eq_valid_iff.2 ⟨hds, hfs⟩⟩

/-! ## Settings -/

theorem read_eq_valid_iff : read (.obj fields) = .valid s ↔
    Reader.optional "kanban_columns" (.list Column.read) [] fields = .valid s.columns ∧
    Reader.optional "priority_patterns" PriorityLabels.read .default fields = .valid s.labels ∧
    Reader.optional "code_scan_settings" Exclusions.read ⟨[], []⟩ fields = .valid s.exclusions ∧
    s.extra = Reader.others ownKeys fields := by
  show (mk <$> Reader.optional "kanban_columns" (.list Column.read) [] fields
    <*> Reader.optional "priority_patterns" PriorityLabels.read .default fields
    <*> Reader.optional "code_scan_settings" Exclusions.read ⟨[], []⟩ fields
    <*> pure (Reader.others ownKeys fields)) = .valid s ↔ _
  simp only [Checked.seq_eq_valid_iff, Checked.map_eq_valid_iff]
  constructor
  · rintro ⟨_, ⟨_, ⟨_, ⟨cs, hcs, rfl⟩, ls, hls, rfl⟩, es, hes, rfl⟩, xs, hxs, rfl⟩
    cases hxs
    exact ⟨hcs, hls, hes, rfl⟩
  · rintro ⟨hcs, hls, hes, hxs⟩
    exact ⟨_, ⟨_, ⟨_, ⟨_, hcs, rfl⟩, _, hls, rfl⟩, _, hes, rfl⟩, _, rfl, by rw [← hxs]⟩

/-- The settings with other exclusions, read from the fields with other exclusions. -/
theorem read_put_exclusions (v : Json) (e : Exclusions) :
    read (.obj (Keyed.put "code_scan_settings".toList v fields)) =
        .valid { s with exclusions := e } ↔
      Reader.optional "kanban_columns" (.list Column.read) [] fields = .valid s.columns ∧
      Reader.optional "priority_patterns" PriorityLabels.read .default fields = .valid s.labels ∧
      Exclusions.read v = .valid e ∧ s.extra = Reader.others ownKeys fields := by
  have hother : ∀ key : String, key ≠ "code_scan_settings" →
      Keyed.get? key.toList (Keyed.put "code_scan_settings".toList v fields) =
        Keyed.get? key.toList fields := by
    intro key hkey
    rw [Keyed.get?_put, if_neg fun h => hkey (String.toList_inj.1 h).symm]
  have hself : Reader.optional "code_scan_settings" Exclusions.read ⟨[], []⟩
      (Keyed.put "code_scan_settings".toList v fields) =
        (Exclusions.read v).under (.key "code_scan_settings".toList) := by
    unfold Reader.optional
    rw [Keyed.get?_put, if_pos rfl]
  rw [read_eq_valid_iff, Reader.optional_congr (hother _ (by decide)),
    Reader.optional_congr (hother _ (by decide)), hself, Checked.under_eq_valid_iff,
    Reader.others_put (by decide)]

/-- Exclusions that are lists can be extended, and the settings are valid afterwards if and only if
they were valid before. -/
theorem exists_override (h : Extensible env fields) :
    ∃ fields', override env fields = .ok fields' ∧
      (∀ s, read (.obj fields) = .valid s →
        read (.obj fields') = .valid { s with exclusions := s.exclusions.extended env }) ∧
      ∀ s', read (.obj fields') = .valid s' → ∃ s, read (.obj fields) = .valid s := by
  obtain ⟨scan, hscan, hdirs, hfiles⟩ := h
  obtain ⟨scan₁, scan₂, hok₁, hok₂, hto, hfrom⟩ := exists_extended hdirs hfiles
  have hlists : (extendList env directoriesVariable "exclude_directories".toList scan >>=
      fun scan => extendList env filesVariable "exclude_files".toList scan >>= fun scan =>
        .ok (Keyed.put "code_scan_settings".toList (.obj scan) fields)) =
      .ok (Keyed.put "code_scan_settings".toList (.obj scan₂) fields) := by
    rw [hok₁]
    show (extendList env filesVariable "exclude_files".toList scan₁ >>= fun scan =>
      .ok (Keyed.put "code_scan_settings".toList (.obj scan) fields)) = _
    rw [hok₂]
    rfl
  have hread : ∀ e, Reader.optional "code_scan_settings" Exclusions.read ⟨[], []⟩ fields =
      .valid e ↔ Exclusions.read (.obj scan) = .valid e := by
    intro e
    rw [Reader.optional_eq_valid_iff, hscan]
    simp
  refine ⟨Keyed.put "code_scan_settings".toList (.obj scan₂) fields, ?_, fun s hs => ?_,
    fun s' hs' => ?_⟩
  · unfold override
    rw [hscan]
    -- an empty object is replaced by an empty object
    cases scan with
    | nil => exact hlists
    | cons e scan => exact hlists
  · obtain ⟨hcs, hls, hes, hxs⟩ := read_eq_valid_iff.1 hs
    exact (read_put_exclusions _ _).2 ⟨hcs, hls, hto _ ((hread _).1 hes), hxs⟩
  · obtain ⟨hcs, hls, hes, hxs⟩ := (read_put_exclusions (s := s') _ s'.exclusions).1 hs'
    obtain ⟨e, he⟩ := hfrom _ hes
    exact ⟨{ s' with exclusions := e }, read_eq_valid_iff.2 ⟨hcs, hls, (hread e).2 he, hxs⟩⟩

/-- Valid settings have lists of exclusions, if they have exclusions. -/
theorem extensible_of_read (hkey : Keyed.get? "code_scan_settings".toList fields ≠ none)
    (h : read (.obj fields) = .valid s) : Extensible env fields := by
  obtain ⟨-, -, hes, -⟩ := read_eq_valid_iff.1 h
  rcases Reader.optional_eq_valid_iff.1 hes with ⟨hnone, -⟩ | ⟨v, hv, hread⟩
  · exact absurd hnone hkey
  cases v with
  | obj scan =>
    obtain ⟨hds, hfs⟩ := Exclusions.read_eq_valid_iff.1 hread
    exact ⟨scan, hv, fun _ => listAt_of_namesAt hds, fun _ => listAt_of_namesAt hfs⟩
  | _ => cases hread

/-! ## The defaults -/

/-- The default board. -/
def default : Settings where
  columns := [
    ⟨"todo".toList, "TODO".toList, "dark".toList, some "TODO|FIXME".toList⟩,
    ⟨"in_progress".toList, "IN PROGRESS".toList, "blue".toList, none⟩,
    ⟨"done".toList, "DONE".toList, "green".toList, none⟩]
  labels := .default
  exclusions := ⟨defaultDirectories.map String.toList, defaultFiles.map String.toList⟩
  extra := []

theorem read_defaultFields : read (.obj defaultFields) = .valid default := by
  rfl

/-- The default board in an environment. -/
def defaultIn (env : Keyed Text) : Settings :=
  { default with exclusions := default.exclusions.extended env }

/-- The defaults can be extended in every environment, and are valid there. -/
theorem exists_override_default (env : Keyed Text) :
    ∃ fields, override env defaultFields = .ok fields ∧
      read (.obj fields) = .valid (defaultIn env) := by
  have hkey : Keyed.get? "code_scan_settings".toList defaultFields ≠ none := by decide
  have hlists : Extensible env defaultFields := extensible_of_read hkey read_defaultFields
  obtain ⟨fields, hok, hto, -⟩ := exists_override hlists
  exact ⟨fields, hok, hto _ read_defaultFields⟩

end Settings
end MarkerBoard

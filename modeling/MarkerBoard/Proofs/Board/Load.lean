import MarkerBoard.Board.Load
import MarkerBoard.Proofs.Board.Extend
import MarkerBoard.Proofs.Disk.Make
import MarkerBoard.Proofs.Disk.Project
import MarkerBoard.Proofs.World
import Mathlib.Data.List.Permutation

/-!
# Loading settings from any file

The settings file may hold anything. Loading falls back on the defaults if it gives settings, and
those of the environment alone wherever the file has no object in it or one that is not valid over
the defaults. The exclusions of the environment come in between: they are added to what has not been
checked yet. So loading falls back for every text in which these exclusions are lists, and for no
bytes that are not a text.

Main results:

* `Settings.load_of_valid`, `Settings.load_of_none` — what is loaded from a file with valid
  settings, and without an object.
* `Settings.fallsBack_iff` — the contents for which loading falls back on the defaults.
-/
namespace MarkerBoard

/-- Fields that are laid over others leave none of them out. -/
theorem Json.get?_overlayFields {key : Text} (upper lower : Keyed Json)
    (h : Keyed.get? key lower ≠ none) : Keyed.get? key (overlayFields lower upper) ≠ none := by
  induction upper generalizing lower with
  | nil =>
    rw [overlayFields]
    exact h
  | cons e upper ih =>
    obtain ⟨k, v⟩ := e
    rw [overlayFields]
    refine ih _ ?_
    rw [Keyed.get?_put]
    split
    · simp
    · exact h

namespace Settings

variable {dir p : Path} {w w₁ : World} {bytes : List UInt8} {t : Text} {o : Option (Keyed Json)}

/-! ## The object in the file -/

/-- The fields of the object in a text, if there is one. -/
def objectIn? (t : Text) : Option (Keyed Json) :=
  match Json.read? t with
  | some (.obj fields) => some fields
  | _ => none

theorem read?_of_objectIn? {fields : Keyed Json} (h : objectIn? t = some fields) :
    Json.read? t = some (.obj fields) := by
  unfold objectIn? at h
  split at h
  · next hread =>
    cases h
    exact hread
  · cases h

theorem loadObject_of_missing (h : w.disk.contains p = false) :
    loadObject p w = (.ok none, w) := by
  unfold loadObject
  rw [Steps.bind_of_ok Steps.get_apply, h]
  rfl

theorem contains_of_bytes (h : w.disk.bytes p = .ok bytes) : w.disk.contains p = true := by
  obtain ⟨place, m, hleads, hat⟩ := Action.exists_of_bytes h
  rw [Disk.contains, Disk.node?_of_leads hleads, hat]
  rfl

/-- A text gives its object. Without one, the log tells. -/
theorem loadObject_of_decode (hbytes : w.disk.bytes p = .ok bytes)
    (htext : Utf8.decode bytes = .ok t) :
    ∃ log, loadObject p w = (.ok (objectIn? t), { w with log }) := by
  have hread : Action.readText p w = (.ok (.ok t), w) := by
    rw [Action.readText, Steps.bind_of_ok Steps.get_apply]
    simp only [hbytes, htext]
    rfl
  unfold loadObject objectIn?
  rw [Steps.bind_of_ok Steps.get_apply, contains_of_bytes hbytes, if_pos rfl,
    Steps.bind_of_ok hread]
  dsimp only
  cases Json.read? t with
  | none => exact ⟨_, rfl⟩
  | some v =>
    cases v with
    | obj fields => exact ⟨w.log, rfl⟩
    | _ => exact ⟨_, rfl⟩

/-- Bytes that are no text are not taken for no object. -/
theorem loadObject_of_undecodable {f : Utf8.Fault} (hbytes : w.disk.bytes p = .ok bytes)
    (hfault : Utf8.decode bytes = .error f) : loadObject p w = (.error (.undecodable f), w) := by
  have hread : Action.readText p w = (.ok (.error (.encoding f)), w) := by
    rw [Action.readText, Steps.bind_of_ok Steps.get_apply]
    simp only [hbytes, hfault]
    rfl
  unfold loadObject
  rw [Steps.bind_of_ok Steps.get_apply, contains_of_bytes hbytes, if_pos rfl,
    Steps.bind_of_ok hread]
  rfl

/-- What is not a file, or is not there, gives no object. -/
theorem loadObject_of_error {f : Disk.Fault} (hbytes : w.disk.bytes p = .error f) :
    ∃ log, loadObject p w = (.ok none, { w with log }) := by
  cases hcontains : w.disk.contains p with
  | false => exact ⟨w.log, loadObject_of_missing hcontains⟩
  | true =>
    unfold loadObject
    rw [Steps.bind_of_ok Steps.get_apply, hcontains, if_pos rfl,
      Steps.bind_of_ok (Action.readText_of_error hbytes)]
    exact ⟨_, rfl⟩

/-! ## The settings made of it -/

/-- The defaults with an object laid over them, if there is one. -/
def merged (o : Option (Keyed Json)) : Keyed Json := Json.overlayFields defaultFields (o.getD [])

theorem merged_objectIn? {upper : Keyed Json} (h : Json.read? t = some (.obj upper)) :
    merged (objectIn? t) = Json.overlayFields defaultFields upper := by
  rw [merged, objectIn?, h]
  rfl

/-- The settings in some fields, or the defaults. -/
def settled (env : Keyed Text) (fields : Keyed Json) : Settings :=
  match read (.obj fields) with
  | .valid s => s
  | .invalid _ => defaultIn env

/-- Settings made of fields once these are known. -/
def loadFields (fields : Keyed Json) : Action Settings := do
  match read (.obj (← overridden fields)) with
  | .valid s => pure s
  | .invalid _ => do
    Action.note .error
    match read (.obj (← overridden defaultFields)) with
    | .valid s => pure s
    | .invalid issues => throw (.badSettings issues)

theorem load_of_loadObject (h : loadObject (ConfigDir.settingsFile dir) w = (.ok o, w₁)) :
    load dir w = loadFields (merged o) w₁ := by
  unfold load
  rw [Steps.bind_of_ok h]
  rcases o with _ | _ | _
  · rfl
  · rfl
  · rfl

theorem overridden_of_ok {fields fields' : Keyed Json} (h : override w.env fields = .ok fields') :
    overridden fields w = (.ok fields', w) := by
  unfold overridden
  rw [Steps.bind_of_ok Steps.get_apply, h]
  rfl

theorem overridden_of_error {fields : Keyed Json} {f : OverrideFault}
    (h : override w.env fields = .error f) :
    overridden fields w = (.error (.badExclusions f), w) := by
  unfold overridden
  rw [Steps.bind_of_ok Steps.get_apply, h]
  rfl

theorem loadFields_of_error {fields : Keyed Json} {f : OverrideFault}
    (h : override w.env fields = .error f) :
    loadFields fields w = (.error (.badExclusions f), w) := by
  unfold loadFields
  rw [Steps.bind_of_error (overridden_of_error h)]

theorem loadFields_of_valid {fields fields' : Keyed Json} {s : Settings}
    (h : override w.env fields = .ok fields') (hvalid : read (.obj fields') = .valid s) :
    loadFields fields w = (.ok s, w) := by
  unfold loadFields
  rw [Steps.bind_of_ok (overridden_of_ok h), hvalid]
  rfl

/-- The settings in the fields are loaded, or the defaults in their stead. -/
theorem loadFields_of_ok {fields fields' : Keyed Json} (h : override w.env fields = .ok fields') :
    ∃ log, loadFields fields w = (.ok (settled w.env fields'), { w with log }) := by
  unfold settled
  cases hread : read (.obj fields') with
  | valid s => exact ⟨w.log, loadFields_of_valid h hread⟩
  | invalid issues =>
    -- the defaults are made anew, with the same exclusions added
    obtain ⟨fields'', hok, hvalid⟩ := exists_override_default w.env
    refine ⟨w.log ++ [.error], ?_⟩
    have hnote : Action.note .error w = (.ok (), { w with log := w.log ++ [.error] }) := rfl
    unfold loadFields
    rw [Steps.bind_of_ok (overridden_of_ok h), hread]
    dsimp only
    rw [Steps.bind_of_ok hnote,
      Steps.bind_of_ok (overridden_of_ok (w := { w with log := w.log ++ [.error] }) hok), hvalid]
    rfl

/-- Without an object the defaults are loaded. -/
theorem load_of_none (h : loadObject (ConfigDir.settingsFile dir) w = (.ok none, w₁)) :
    load dir w = (.ok (defaultIn w₁.env), w₁) := by
  obtain ⟨fields, hok, hvalid⟩ := exists_override_default w₁.env
  exact (load_of_loadObject h).trans (loadFields_of_valid hok hvalid)

/-- Settings that are valid over the defaults are loaded with the exclusions of the environment
added to theirs. -/
theorem load_of_valid {upper : Keyed Json} {s : Settings}
    (hbytes : w.disk.bytes (ConfigDir.settingsFile dir) = .ok bytes)
    (htext : Utf8.decode bytes = .ok t) (hupper : Json.read? t = some (.obj upper))
    (hvalid : read (.obj (Json.overlayFields defaultFields upper)) = .valid s) :
    ∃ log, load dir w =
      (.ok { s with exclusions := s.exclusions.extended w.env }, { w with log }) := by
  obtain ⟨log, hobject⟩ := loadObject_of_decode hbytes htext
  -- the defaults have exclusions, and no object over them can leave these out
  have hkey : Keyed.get? "code_scan_settings".toList defaultFields ≠ none := by decide
  have hlists : Extensible w.env (Json.overlayFields defaultFields upper) :=
    extensible_of_read (Json.get?_overlayFields upper defaultFields hkey) hvalid
  obtain ⟨fields, hok, hto, -⟩ := exists_override hlists
  rw [load_of_loadObject hobject, merged_objectIn? hupper]
  exact ⟨log, loadFields_of_valid hok (hto s hvalid)⟩

/-! ## Falling back -/

/-- The bytes are no text with an object, or one that is not valid over the defaults. -/
def IsUnusable (bytes : List UInt8) : Prop :=
  ∀ t fields s, Utf8.decode bytes = .ok t → Json.read? t = some (.obj fields) →
    read (.obj (Json.overlayFields defaultFields fields)) ≠ .valid s

/-- Settings are loaded, and if the file is unusable they are those that are loaded in the same
environment without a file. -/
def FallsBack (dir : Path) (w : World) : Prop :=
  ∃ s w', load dir w = (.ok s, w') ∧
    ∀ bytes, w.disk.bytes (ConfigDir.settingsFile dir) = .ok bytes → IsUnusable bytes →
      ∀ w₀ : World, w₀.env = w.env → w₀.disk.contains (ConfigDir.settingsFile dir) = false →
        (load dir w₀).1 = .ok s

/-- Nothing but the defaults is made of fields that are not valid: the exclusions that the
environment adds to are lists, or with these added the fields are still not valid, or are those of
the defaults after all. -/
def IsHarmless (env : Keyed Text) (fields : Keyed Json) : Prop :=
  Extensible env fields ∨ ∃ fields', override env fields = .ok fields' ∧
    ∀ s, read (.obj fields') = .valid s → s = defaultIn env ∨ ∃ s', read (.obj fields) = .valid s'

theorem isHarmless_iff {env : Keyed Text} {fields : Keyed Json} : IsHarmless env fields ↔
    ∃ fields', override env fields = .ok fields' ∧
      ∀ s, read (.obj fields') = .valid s →
        s = defaultIn env ∨ ∃ s', read (.obj fields) = .valid s' := by
  constructor
  · rintro (h | h)
    · obtain ⟨fields', hok, -, hfrom⟩ := exists_override h
      exact ⟨fields', hok, fun s hs => .inr (hfrom s hs)⟩
    · exact h
  · exact .inr

/-- Without a file the defaults are loaded. -/
theorem load_of_missing (h : w.disk.contains (ConfigDir.settingsFile dir) = false) :
    load dir w = (.ok (defaultIn w.env), w) :=
  load_of_none (loadObject_of_missing h)

/-- On a disk without entries no names lead to anything, unless the last one is the way up. -/
theorem at?_of_nil {d : Disk} {n : Nat} {at_ q : Place} {names : List Text} {name : Text}
    (hd : d.entries = []) (hname : name ≠ ['.', '.']) (hat : at_ = [])
    (h : Disk.Leads d true n at_ (names ++ [name]) q) : d.at? q = none := by
  have hempty : ∀ p : Place, p ≠ [] → d.at? p = none := by
    intro p hp
    rw [Disk.at?, if_neg hp, hd]
    rfl
  generalize hrest : names ++ [name] = rest at h
  induction h generalizing names with
  | here => simp at hrest
  | up _ ih =>
    -- above the root there is only the root
    cases names with
    | nil => exact absurd (List.cons.inj hrest).1 hname
    | cons first names => exact ih (by rw [hat]; rfl) (List.cons.inj hrest).2
  | last => exact hempty _ (by simp)
  | enter _ hdir =>
    rw [hempty _ (by simp)] at hdir
    cases hdir
  | jump _ hlink =>
    rw [hempty _ (by simp)] at hlink
    cases hlink

theorem settingsFile_eq (dir : Path) :
    ConfigDir.settingsFile dir = Disk.filePath dir ["settings.json".toList] := by
  have hname : Path.ofText "settings.json".toList = ⟨[], ["settings.json".toList]⟩ := by decide
  rw [ConfigDir.settingsFile, Path.child, hname]
  rfl

theorem contains_settingsFile_of_nil {d : Disk} (hd : d.entries = []) :
    d.contains (ConfigDir.settingsFile dir) = false := by
  unfold Disk.contains Disk.node?
  cases hplace : d.locate (ConfigDir.settingsFile dir) with
  | error f => rfl
  | ok place =>
    rw [Disk.locate_eq_ok_iff, settingsFile_eq, Disk.absolute_filePath] at hplace
    dsimp only
    rw [at?_of_nil hd (by decide) rfl hplace]
    rfl

/-- What is loaded from a text, if the exclusions can be added to its fields. -/
theorem load_of_override {fields : Keyed Json}
    (hbytes : w.disk.bytes (ConfigDir.settingsFile dir) = .ok bytes)
    (htext : Utf8.decode bytes = .ok t) (hok : override w.env (merged (objectIn? t)) = .ok fields) :
    ∃ log, load dir w = (.ok (settled w.env fields), { w with log }) := by
  obtain ⟨log, hobject⟩ := loadObject_of_decode hbytes htext
  rw [load_of_loadObject hobject]
  exact loadFields_of_ok (w := { w with log }) hok

/-- Nothing is loaded from a file unless it is a text and the exclusions can be added to its
fields. -/
theorem exists_of_load {s : Settings} (hload : load dir w = (.ok s, w₁))
    (hbytes : w.disk.bytes (ConfigDir.settingsFile dir) = .ok bytes) :
    ∃ t fields, Utf8.decode bytes = .ok t ∧ override w.env (merged (objectIn? t)) = .ok fields ∧
      s = settled w.env fields := by
  cases htext : Utf8.decode bytes with
  | error f =>
    rw [load, Steps.bind_of_error (loadObject_of_undecodable hbytes htext)] at hload
    cases hload
  | ok t =>
    cases hok : override w.env (merged (objectIn? t)) with
    | error f =>
      obtain ⟨log, hobject⟩ := loadObject_of_decode hbytes htext
      rw [load_of_loadObject hobject, loadFields_of_error (w := { w with log }) hok] at hload
      cases hload
    | ok fields =>
      obtain ⟨log, hload'⟩ := load_of_override hbytes htext hok
      cases hload'.symm.trans hload
      exact ⟨t, fields, rfl, hok, rfl⟩

/-- An unusable file is as if there were none, and without it there are the defaults. -/
theorem eq_defaultIn_of_fallsBack {s : Settings}
    (hbytes : w.disk.bytes (ConfigDir.settingsFile dir) = .ok bytes) (hunusable : IsUnusable bytes)
    (hload : load dir w = (.ok s, w₁)) (h : FallsBack dir w) : s = defaultIn w.env := by
  obtain ⟨s', w', hload', hback⟩ := h
  cases hload.symm.trans hload'
  have hnone : (⟨w.disk.here, []⟩ : Disk).contains (ConfigDir.settingsFile dir) = false :=
    contains_settingsFile_of_nil rfl
  have hsame := hback bytes hbytes hunusable { w with disk := ⟨w.disk.here, []⟩ } rfl hnone
  rw [load_of_missing hnone] at hsame
  exact (Except.ok.inj hsame).symm

/-- Loading falls back on the defaults if and only if the file, if there is one, is a text, and the
exclusions can be added to the object in it, if there is one, without making anything of it. -/
theorem fallsBack_iff (dir : Path) (w : World) : FallsBack dir w ↔
    ∀ bytes, w.disk.bytes (ConfigDir.settingsFile dir) = .ok bytes →
      ∃ t, Utf8.decode bytes = .ok t ∧ ∀ upper, Json.read? t = some (.obj upper) →
        IsHarmless w.env (Json.overlayFields defaultFields upper) := by
  constructor
  · intro h bytes hbytes
    obtain ⟨s, w', hload, -⟩ := id h
    obtain ⟨t, fields, htext, hok, rfl⟩ := exists_of_load hload hbytes
    refine ⟨t, htext, fun upper hupper => isHarmless_iff.2 ?_⟩
    rw [merged_objectIn? hupper] at hok
    refine ⟨fields, hok, fun s hs => ?_⟩
    by_cases hvalid : ∃ s', read (.obj (Json.overlayFields defaultFields upper)) = .valid s'
    · exact .inr hvalid
    · -- the file is unusable, so it is as if there were none
      have hunusable : IsUnusable bytes := by
        intro t' fields' s' ht' hfields' hs'
        cases htext.symm.trans ht'
        cases hupper.symm.trans hfields'
        exact hvalid ⟨s', hs'⟩
      refine .inl ?_
      rw [← eq_defaultIn_of_fallsBack hbytes hunusable hload h, settled, hs]
  · intro h
    cases hbytes : w.disk.bytes (ConfigDir.settingsFile dir) with
    | error f =>
      obtain ⟨log, hobject⟩ := loadObject_of_error hbytes
      refine ⟨_, _, load_of_none hobject, fun bytes hbytes' => ?_⟩
      cases hbytes.symm.trans hbytes'
    | ok bytes =>
      obtain ⟨t, htext, hharmless⟩ := h bytes hbytes
      cases hfields : objectIn? t with
      | none =>
        obtain ⟨log, hobject⟩ := loadObject_of_decode hbytes htext
        rw [hfields] at hobject
        refine ⟨_, _, load_of_none hobject, fun _ _ _ w₀ henv hnone => ?_⟩
        rw [load_of_missing hnone, henv]
      | some upper =>
        have hupper := read?_of_objectIn? hfields
        obtain ⟨fields, hok, hmade⟩ := isHarmless_iff.1 (hharmless upper hupper)
        rw [← merged_objectIn? hupper] at hok
        obtain ⟨log, hload⟩ := load_of_override hbytes htext hok
        refine ⟨_, _, hload, fun bytes' hbytes' hunusable w₀ henv hnone => ?_⟩
        cases hbytes.symm.trans hbytes'
        rw [load_of_missing hnone, henv, settled]
        -- only the defaults are made of an unusable file
        cases hread : read (.obj fields) with
        | invalid issues => rfl
        | valid s =>
          rcases hmade s hread with rfl | ⟨s', hs'⟩
          · rfl
          · exact absurd hs' (hunusable t upper s' htext hupper)

/-- A world with the directory of a board, and in it a settings file. -/
def sampleSettingsWorld (bytes : List UInt8) : World where
  disk := ⟨⟨['/'], []⟩, [(["b".toList], .dir),
    (["b".toList, "settings.json".toList], .file bytes 0o644)]⟩
  env := []
  git := .silent
  localNow := .first
  utcNow := .first
  refusals := .none
  freshName := "t".toList
  log := []

/-- The directory of that board. -/
def sampleDir : Path := ⟨['/'], ["b".toList]⟩

theorem bytes_sampleSettingsWorld (bytes : List UInt8) :
    (sampleSettingsWorld bytes).disk.bytes (ConfigDir.settingsFile sampleDir) = .ok bytes := by
  cbv

/-- A number where an object should be. -/
def sampleNumber : Text := "\x7b\"code_scan_settings\": 5\x7d".toList

theorem read?_sampleNumber :
    Json.read? sampleNumber = some (.obj [("code_scan_settings".toList, .int 5)]) := by
  cbv

/-- A byte that no text has makes loading fail, and so does a number where the exclusions should
be. -/
theorem not_fallsBack_sampleSettingsWorld :
    ¬ FallsBack sampleDir (sampleSettingsWorld [0xff]) ∧
    ¬ FallsBack sampleDir (sampleSettingsWorld (Utf8.encode sampleNumber)) := by
  constructor
  · rintro ⟨s, w', hload, -⟩
    have hfault : Utf8.decode [0xff] = .error ⟨0, [0xff], .start⟩ := by decide
    rw [load, Steps.bind_of_error (loadObject_of_undecodable (bytes_sampleSettingsWorld _) hfault)]
      at hload
    cases hload
  · rintro ⟨s, w', hload, -⟩
    obtain ⟨log, hobject⟩ :=
      loadObject_of_decode (bytes_sampleSettingsWorld _) (Utf8.decode_encode sampleNumber)
    have hfault : override (sampleSettingsWorld (Utf8.encode sampleNumber)).env
        (merged (objectIn? sampleNumber)) = .error (.notIterable "int".toList) := by
      rw [objectIn?, read?_sampleNumber]
      rfl
    rw [load_of_loadObject hobject] at hload
    cases (loadFields_of_error (w := { sampleSettingsWorld _ with log }) hfault).symm.trans hload

end Settings
end MarkerBoard

import MarkerBoard.Proofs.Disk.Remake
import MarkerBoard.Proofs.History.Saved
import MarkerBoard.Proofs.History.Visits

/-!
# Recording a scan again

At a commit that git tells, a scan that is recorded again adds no snapshot, and all else that the
record has from the history before it comes back from the first record. So the second record is the
first one up to the two times of the scan, and the same to the byte if the clock has not moved.

A run that has failed fails again.

Main results:

* `History.record_again` — the record of a scan over its own record.
* `HistoryStore.initialise_again` — making the directory again makes nothing.
* `HistoryStore.save_again` — a scan that is recorded twice.
-/
namespace MarkerBoard

/-- A scan at a commit that git tells, recorded over its own record at another time. -/
theorem History.record_again {r : Scanned} (hknown : r.git.currentCommit ≠ Git.unknown)
    (old : Option History) (now : Moment) :
    record (some (record old r)) { r with time := now } =
      { record old r with lastScanAt := now, updatedAt := now } := by
  have hcommit : (record old r).commit = r.git.currentCommit := rfl
  have hadds : addsSnapshot (some (record old r)) r.git.currentCommit = false := by
    simp [addsSnapshot, hcommit, hknown, r.git.currentCommit_ne_nil]
  have hsnapshots : snapshotsAfter (some (record old r)) { r with time := now } =
      (record old r).snapshots := by
    rw [snapshotsAfter, hadds]
    rfl
  rw [record, hsnapshots]
  rfl

/-- An action that does nothing when it is done again, followed by one that changes nothing but the
log: done again, both together end as they did. -/
theorem Action.IgnoresLog.bind_again {α β : Type} {a : Action α} {f : α → Action β}
    (ha : IgnoresLog a) (hf : ∀ x, IgnoresLog (f x)) {x : α} {r : Except Failure β} {w : World}
    {log log' : List Level} (hagain : a w = (.ok x, { w with log }))
    (hrest : f x w = (r, { w with log := log' })) :
    ∃ notes, (a >>= f) { w with log := log' } = (r, { w with log := notes }) := by
  obtain ⟨log₁, h₁⟩ := ha w log'
  rw [hagain] at h₁
  obtain ⟨log₂, h₂⟩ := hf x w log₁
  rw [hrest] at h₂
  rw [Steps.bind_of_ok h₁]
  exact ⟨log₂, h₂⟩

namespace HistoryStore

open Disk MarkerBoard.Action

variable {store : HistoryStore} {settings : Option Settings} {items : List Item}
  {w w' v : World} {h : History} {o : Surroundings}

/-! ## Making the directory again -/

/-- What has been made is there, and what could not be written cannot be written now either. -/
theorem initialise_again (hinit : store.initialise w = (.ok (), w')) :
    ∃ log, store.initialise w' = (.ok (), { w' with log }) := by
  obtain ⟨-, -, -, hdir⟩ := exists_of_initialise hinit
  rw [initialise_of_makePath (makePath_of_isDir hdir _)]
  rcases hmake : w.disk.makePath w.refusals.makeDirectory store.dir with ⟨made, d⟩
  cases made with
  | error f => cases (initialise_of_makePath_error hmake).symm.trans hinit
  | ok _ =>
  rw [initialise_of_makePath hmake] at hinit
  by_cases hignore : d.contains store.ignoreFile
  · rw [if_pos hignore] at hinit
    cases hinit
    exact ⟨w.log, by rw [if_pos hignore]⟩
  · rw [if_neg hignore] at hinit
    cases hwrite : d.write store.ignoreFile (Utf8.encode ignoreText) with
    | ok d' =>
      rw [hwrite] at hinit
      cases hinit
      have hthere := contains_of_write (Bool.eq_false_iff.2 hignore) hwrite
      exact ⟨w.log, by rw [if_pos hthere]⟩
    | error f =>
      rw [hwrite] at hinit
      cases hinit
      exact ⟨_, by rw [if_neg hignore, hwrite]⟩

/-! ## A run that has failed -/

theorem ignoresLog_write (s : HistoryStore) (h : History) : IgnoresLog (s.write h) := by
  intro w log
  cases hrep : replaced w s.file false (Utf8.encode h.toText) with
  | ok d => exact ⟨log, by rw [write_of_ok hrep, write_of_ok (w := { w with log }) hrep]⟩
  | error f => exact ⟨log, by rw [write_of_error hrep, write_of_error (w := { w with log }) hrep]⟩

theorem world_of_write_error {e : Failure} (hwrite : store.write h w = (.error e, w')) : w' = w := by
  cases hrep : replaced w store.file false (Utf8.encode h.toText) with
  | ok d => cases (write_of_ok hrep).symm.trans hwrite
  | error f =>
    cases (write_of_error hrep).symm.trans hwrite
    rfl

/-- When the directory has been made, a run that fails changes nothing but the log. -/
theorem exists_log_of_save_error {e : Failure} {w₁ : World}
    (hinit : store.initialise w = (.ok (), w₁))
    (hsave : store.save items settings w = (.error e, w')) : ∃ log, w' = { w₁ with log } := by
  rw [save, Steps.bind_of_ok hinit, Steps.bind_of_ok Steps.get_apply] at hsave
  obtain ⟨log, hlog⟩ := store.logsOnly_load w₁
  rcases Steps.bind_error_iff.1 hsave with hload | ⟨old, w₂, hload, hsave⟩
  · rw [hload] at hlog
    exact ⟨log, hlog⟩
  · rw [hload] at hlog
    -- a file that cannot be written is left as it was
    rcases Steps.bind_error_iff.1 hsave with hwrite | ⟨_, _, -, hpure⟩
    · exact ⟨log, (world_of_write_error hwrite).trans hlog⟩
    · cases hpure

/-- A run that has failed fails again and leaves the disk. It fails in the same way, unless the
directory could not be made: those above it may be there now. -/
theorem save_again_of_error {e : Failure} (hsave : store.save items settings w = (.error e, w')) :
    (∃ log, store.save items settings w' = (.error e, { w' with log })) ∨
    ∃ f, e = .historyUnwritable store.dir f ∧ (w.disk.IsTree →
      ∃ f', store.save items settings w' = (.error (.historyUnwritable store.dir f'), w')) := by
  rcases hinit : store.initialise w with ⟨r, w₁⟩
  cases r with
  | error f =>
    rcases store.initialise_cases w with ⟨f', d, hf, hmake⟩ | ⟨_, _, _, hok, -⟩
    · cases hf.symm.trans hinit
      rw [save, Steps.bind_of_error hinit] at hsave
      cases hsave
      refine .inr ⟨f', rfl, fun hd => ?_⟩
      obtain ⟨f'', hagain⟩ := makePath_again hd hmake
      exact ⟨f'', Steps.bind_of_error (initialise_of_makePath_error hagain)⟩
    · cases hok.symm.trans hinit
  | ok _ =>
  obtain ⟨log, hagain⟩ := initialise_again hinit
  obtain ⟨log', rfl⟩ := exists_log_of_save_error hinit hsave
  rw [save, Steps.bind_of_ok hinit] at hsave
  refine .inl (store.ignoresLog_initialise.bind_again (fun _ => ?_) hagain hsave)
  exact ignoresLog_get_bind (fun w log => rfl) fun w => store.ignoresLog_load.bind fun old =>
    (store.ignoresLog_write _).bind fun _ => ignoresLog_pure _

/-! ## A run that has succeeded -/

/-- The history at another time at which it is scanned. -/
def rescanned (h : History) (now : Moment) : History := { h with lastScanAt := now, updatedAt := now }

/-- A directory that has gone with the write cannot be made again, nor any above it: its path goes
through the link that the history has replaced. -/
theorem makePath_of_write {refused : Path → Option Text} {made : Except Fault Unit} {d : Disk}
    (hdir : w.disk.isDir store.dir = true) (hwrite : store.write h w = (.ok (), w'))
    (hmake : w'.disk.makePath refused store.dir = (made, d)) :
    d = w'.disk ∧ (made = .ok () → w'.disk.isDir store.dir = true) := by
  obtain ⟨d', hrep, rfl⟩ := exists_of_write hwrite
  obtain ⟨tp, tq, mode, hnone, -, hnot, rfl⟩ := replaced_eq_ok hrep
  have hnil : tq ≠ [] := ne_nil_of_not_dir hnot
  -- the temporary file was put where nothing was, which is no directory
  have hnot' : w.disk.at? tq ≠ some .dir := by
    intro hdir
    have hgrows : Grows (· = .file (Utf8.encode h.toText) mode) w.disk
        (w.disk.put tp (.file (Utf8.encode h.toText) mode)) := grows_put hnone rfl
    exact hnot (hgrows.at?_of_some hdir)
  cases made with
  | error f => exact ⟨eq_of_makePath_put hdir hnil hnot' hmake, fun hok => by cases hok⟩
  | ok _ =>
    have hstill := isDir_of_makePath_put hdir hnil hnot' hmake
    cases (makePath_of_isDir hstill refused).symm.trans hmake
    exact ⟨rfl, fun _ => hstill⟩

/-- What a scan that is recorded has been recorded over, and that its directory was there. -/
theorem exists_record_isDir (hsave : store.save items settings w = (.ok h, w')) :
    ∃ old w₂, h = .record old (store.scanned w items settings) ∧
      w₂.disk.isDir store.dir = true ∧ store.write h w₂ = (.ok (), w') := by
  obtain ⟨w₁, old, w₂, hinit, hload, rfl, hwrite⟩ := exists_of_save hsave
  obtain ⟨log, hw₁, -, hdir⟩ := exists_of_initialise hinit
  have hscanned : store.scanned w₁ items settings = store.scanned w items settings := by
    rw [hw₁]
    rfl
  refine ⟨old, w₂, by rw [hscanned], ?_, hwrite⟩
  rwa [disk_of_load hload]

/-- A record that is in the file is found there again, and is what the scan is recorded over. -/
theorem exists_initialise_of_has {old : Option History} {m : Nat}
    (hknown : w.git.currentCommit ≠ Git.unknown) (ho : o.git = w.git)
    (hh : h = .record old (store.scanned w items settings)) (hx : h.IsExact)
    (hhas : store.Has v.disk (some (.file (Utf8.encode h.toText) m)))
    (hdir : v.disk.isDir store.dir = true) :
    ∃ v', store.initialise (v.within o) = (.ok (), v') ∧ store.load v' = (.ok (some h), v') ∧
      store.Has v'.disk (some (.file (Utf8.encode h.toText) m)) ∧
      History.record (some h) (store.scanned v' items settings) = rescanned h o.utcNow := by
  have hmake : (v.within o).disk.makePath o.refusals.makeDirectory store.dir = (.ok (), v.disk) :=
    makePath_of_isDir hdir _
  obtain ⟨v', hinit⟩ : ∃ v', store.initialise (v.within o) = (.ok (), v') :=
    ⟨_, initialise_of_makePath hmake⟩
  obtain ⟨log, hv', hgrows, -⟩ := exists_of_initialise hinit
  have hhas' : store.Has v'.disk (some (.file (Utf8.encode h.toText) m)) :=
    hhas.grows hgrows not_isAdded_link
  refine ⟨v', hinit, load_of_has hx hhas', hhas', ?_⟩
  have hscanned : store.scanned v' items settings =
      { store.scanned w items settings with time := o.utcNow } := by
    rw [hv', scanned, scanned, ← ho]
    rfl
  rw [hscanned, hh, History.record_again hknown]
  rfl

theorem isExact_rescanned (hx : h.IsExact) (now : Moment) : (rescanned h now).IsExact :=
  ⟨hx.byStatus, hx.byKeyword, hx.byFile, hx.snapshots, hx.extra, hx.extra_keys⟩

/-- A scan at a commit that git tells, recorded twice. If this fails, it fails again in the same
way, though perhaps for another reason if the directory cannot be made. If it succeeds, the second
record is the first one but for the two times of the scan, which are the same if the clock has not
moved; so the file is left with the same bytes then.

The second record may fail, as any record may, because the file cannot be replaced, which leaves its
bytes; or because there is no directory any more: its path went through a link which the first
record has replaced. -/
theorem save_again (hknown : w.git.currentCommit ≠ Git.unknown) :
    (∀ e w₁, store.save items settings w = (.error e, w₁) →
      (∃ log, store.save items settings w₁ = (.error e, { w₁ with log })) ∨
      ∃ f, e = .historyUnwritable store.dir f ∧ (w.disk.IsTree →
        ∃ f', store.save items settings w₁ = (.error (.historyUnwritable store.dir f'), w₁))) ∧
    ∀ h w₁ (o : Surroundings), store.save items settings w = (.ok h, w₁) → o.git = w.git →
      (o.utcNow = w.utcNow → rescanned h o.utcNow = h) ∧
      ((∃ f, w₁.disk.makePath o.refusals.makeDirectory store.dir = (.error f, w₁.disk) ∧
        store.save items settings (w₁.within o) =
          (.error (.historyUnwritable store.dir f), w₁.within o)) ∨
      store.load w₁ = (.ok (some h), w₁) ∧
        w₁.disk.bytes store.file = .ok (Utf8.encode h.toText) ∧
        ∃ v, store.initialise (w₁.within o) = (.ok (), v) ∧
          v.disk.bytes store.file = .ok (Utf8.encode h.toText) ∧
          match replaced v store.file false (Utf8.encode (rescanned h o.utcNow).toText) with
          | .error f => store.save items settings (w₁.within o) =
              (.error (.historyUnwritable store.file f), v)
          | .ok d => store.save items settings (w₁.within o) =
                (.ok (rescanned h o.utcNow), { v with disk := d }) ∧
              d.bytes store.file = .ok (Utf8.encode (rescanned h o.utcNow).toText) ∧
              store.load { v with disk := d } =
                (.ok (some (rescanned h o.utcNow)), { v with disk := d })) := by
  refine ⟨fun e w₁ hsave => save_again_of_error hsave, fun h w₁ o hsave ho => ?_⟩
  obtain ⟨old, w₂, hh, hdir₂, hwrite⟩ := exists_record_isDir hsave
  constructor
  · intro hclock
    rw [hclock, hh]
    rfl
  rcases hmake : w₁.disk.makePath o.refusals.makeDirectory store.dir with ⟨made, d⟩
  obtain ⟨rfl, hmade⟩ := makePath_of_write hdir₂ hwrite hmake
  cases made with
  | error f =>
    refine .inl ⟨f, rfl, ?_⟩
    rw [save, Steps.bind_of_error (initialise_of_makePath_error (w := w₁.within o) hmake)]
    rfl
  | ok _ =>
    have hdir := hmade rfl
    have hx := isExact_of_save hsave
    obtain ⟨d₁, hrep₁, rfl⟩ := exists_of_write hwrite
    obtain ⟨m, hhas⟩ := has_of_replaced hrep₁ hdir
    obtain ⟨v, hinit, hload, hhas', hnext⟩ :=
      exists_initialise_of_has (o := o) (v := { w₂ with disk := d₁ }) hknown ho hh hx hhas hdir
    refine .inr ⟨load_of_save hsave hdir rfl, hhas.bytes, v, hinit, hhas'.bytes, ?_⟩
    split
    · next f hrep => exact save_of_error hinit hload (hnext ▸ hrep)
    · next d hrep =>
      have hagain := save_of_ok hinit hload (hnext ▸ hrep)
      rw [hnext] at hagain
      obtain ⟨m', hhas''⟩ := hhas'.replace (by simp) hrep
      exact ⟨hagain, hhas''.bytes,
        load_of_has (w := { v with disk := d }) (isExact_rescanned hx o.utcNow) hhas''⟩

/-! ## Two records at a commit -/

/-- The sample world at a commit that git tells. -/
def sampleCommitWorld : World := (sampleWorld none).within (sampleAt "c".toList .first)

/-- The first record there. -/
def sampleFirst : History := .record none (sampleScan "c".toList .first)

/-- A scan that is recorded again later leaves all but the two times of the scan. -/
theorem save_again_sampleCommitWorld :
    sampleCommitWorld.git.currentCommit ≠ Git.unknown ∧
    ∃ w₁ w₂, sampleStore.save [] none sampleCommitWorld = (.ok sampleFirst, w₁) ∧
      sampleStore.save [] none (w₁.within (sampleAt "c".toList sampleFebruary)) =
        (.ok (rescanned sampleFirst sampleFebruary), w₂) ∧
      sampleStore.load w₂ = (.ok (some (rescanned sampleFirst sampleFebruary)), w₂) := by
  have hknown : sampleCommitWorld.git.currentCommit ≠ Git.unknown := by decide
  have hinit : sampleStore.initialise sampleCommitWorld = (.ok (), sampleCommitWorld) :=
    initialise_of_isDir (isDir_sampleDisk none) (contains_sampleDisk none)
  obtain ⟨log, hload⟩ := load_of_place (s := sampleStore) (w := sampleCommitWorld) place_sampleWorld
  have hbefore : sampleCommitWorld.disk = sampleDisk none := rfl
  obtain ⟨w₁, bytes, hsave, hdisk⟩ : ∃ w₁ bytes,
      sampleStore.save [] none sampleCommitWorld = (.ok sampleFirst, w₁) ∧
        w₁.disk = sampleDisk (some bytes) :=
    ⟨_, _, save_of_ok hinit hload (replaced_of_sampleDisk hbefore rfl rfl _), rfl⟩
  have hdir : w₁.disk.isDir sampleStore.dir = true := hdisk ▸ isDir_sampleDisk _
  have hignore : w₁.disk.contains sampleStore.ignoreFile = true := hdisk ▸ contains_sampleDisk _
  obtain ⟨-, ⟨f, hmake, -⟩ | ⟨-, -, v, hinit', -, hagain⟩⟩ :=
    (save_again hknown).2 _ _ (sampleAt "c".toList sampleFebruary) hsave rfl
  · -- the directory is still there
    cases (makePath_of_isDir hdir _).symm.trans hmake
  · cases (initialise_of_isDir (w := w₁.within _) hdir hignore).symm.trans hinit'
    rw [replaced_of_sampleDisk (w := w₁.within _) hdisk rfl rfl] at hagain
    exact ⟨hknown, _, _, hsave, hagain.1, hagain.2.2⟩

end HistoryStore
end MarkerBoard

import MarkerBoard.Proofs.History.Store

/-!
# What recording leaves alone

To record a scan, directories and an ignore file are made where nothing was, and then the entry of
the history is replaced. This holds of every run: one that fails on the way has done the first of
these steps and not the next one. So whatever was there is there still, but for that entry.

Main results:

* `HistoryStore.eq_put_of_replaced` — the history is put at its place.
* `HistoryStore.save_cases` — what a run of recording has done to the disk.
* `HistoryStore.at?_of_save` — all entries but that of the history are kept.
-/
namespace MarkerBoard.HistoryStore

open Disk MarkerBoard.Action

variable {s : HistoryStore} {d d' : Disk} {w w' : World} {h : History}

theorem logsOnly_load (s : HistoryStore) : LogsOnly s.load := by
  refine (logsOnly_readText _).bind fun r => ?_
  split
  · exact logsOnly_pure _
  · exact (logsOnly_note _).bind fun _ => logsOnly_pure _
  · exact logsOnly_throw _
  · split
    · exact logsOnly_pure _
    · exact (logsOnly_note _).bind fun _ => logsOnly_pure _

/-- Loading the history leaves the disk. -/
theorem disk_of_load {r : Except Failure (Option History)} (hload : s.load w = (r, w')) :
    w'.disk = w.disk := by
  obtain ⟨log, hlog⟩ := s.logsOnly_load w
  rw [hload] at hlog
  replace hlog : w' = { w with log } := hlog
  rw [hlog]

theorem ignoresLog_load (s : HistoryStore) : IgnoresLog s.load := by
  refine (ignoresLog_readText _).bind fun r => ?_
  split
  · exact ignoresLog_pure _
  · exact (ignoresLog_note _).bind fun _ => ignoresLog_pure _
  · exact ignoresLog_throw _
  · split
    · exact ignoresLog_pure _
    · exact (ignoresLog_note _).bind fun _ => ignoresLog_pure _

theorem ignoresLog_initialise (s : HistoryStore) : IgnoresLog s.initialise := by
  refine ignoresLog_get_bind (fun w log => rfl) fun w => ?_
  refine (ignoresLog_setDisk _).bind fun _ => ?_
  split
  · exact ignoresLog_throw _
  · split
    · split
      · exact ignoresLog_setDisk _
      · exact ignoresLog_note _
    · exact ignoresLog_pure _

/-- The place of the history is read off the disk as it was before its directory was made. -/
theorem eq_put_of_replaced {keepMode : Bool} {bytes : List UInt8}
    (hgrows : Grows IsAdded d w.disk)
    (hrep : replaced w s.file keepMode bytes = .ok d') :
    ∃ m, d' = w.disk.put (s.place d) (.file bytes m) := by
  obtain ⟨tp, tq, m, hnone, hleads, hnot, rfl⟩ := replaced_eq_ok hrep
  -- neither the directory nor the temporary file is a link, so paths resolve as before
  have htemp : Grows (∃ m, · = .file bytes m) w.disk (w.disk.put tp (.file bytes m)) :=
    grows_put hnone ⟨m, rfl⟩
  have hlinks : ∀ q t, (w.disk.put tp (.file bytes m)).at? q = some (.link t) ↔
      d.at? q = some (.link t) := by
    intro q t
    rw [htemp.link_iff (by simp), hgrows.link_iff not_isAdded_link]
  have hparts : (w.disk.absolute s.file).parts = (d.absolute s.dir).parts ++ [fileName] := by
    rw [file_eq, absolute_filePath, absolute, absolute, hgrows.here]
  rw [hparts] at hleads
  obtain ⟨dir, hdir, k, hlast⟩ := hleads.exists_of_append (by simp)
  have hplace : s.place d = dir ++ [fileName] := by
    rw [place, resolve, resolveFrom_of_leads hdir hlinks]
  -- the last name stands for itself, since it is not followed if it is a link
  have htq : tq = dir ++ [fileName] := hlast.eq_of_entry (by decide)
  exact ⟨m, by rw [hplace, htq]⟩

/-- Writing the history puts it at its place, or changes nothing. -/
theorem write_cases (s : HistoryStore) (h : History) (hgrows : Grows IsAdded d w.disk) :
    (∃ f, s.write h w = (.error (.historyUnwritable s.file f), w)) ∨
    ∃ m, s.write h w =
      (.ok (), { w with disk := w.disk.put (s.place d) (.file (Utf8.encode h.toText) m) }) := by
  cases hrep : replaced w s.file false (Utf8.encode h.toText) with
  | error f => exact .inl ⟨f, write_of_error hrep⟩
  | ok d' =>
    obtain ⟨m, rfl⟩ := eq_put_of_replaced hgrows hrep
    exact .inr ⟨m, write_of_ok hrep⟩

/-- Recording a scan adds directories and an ignore file, and then puts the history at its place,
unless it fails before that. -/
theorem save_cases (s : HistoryStore) (items : List Item) (settings : Option Settings)
    (w : World) :
    ∃ log d', Grows IsAdded w.disk d' ∧
      ((∃ f, s.save items settings w = (.error f, { w with disk := d', log })) ∨
      ∃ h m, s.save items settings w = (.ok h, { w with
        disk := d'.put (s.place w.disk) (.file (Utf8.encode h.toText) m), log })) := by
  unfold save
  rcases hinit : s.initialise w with ⟨r, w₁⟩
  cases r with
  | error f =>
    -- some of the directories may have been made by then
    rcases s.initialise_cases w with ⟨f', d, hf, hmake⟩ | ⟨_, _, _, hok, -⟩
    · cases hf.symm.trans hinit
      exact ⟨w.log, d, (grows_makePath hmake).mono fun n hn => .inl hn,
        .inl ⟨_, Steps.bind_of_error hinit⟩⟩
    · cases hok.symm.trans hinit
  | ok _ =>
  obtain ⟨log₁, hw₁, hgrows, -⟩ := exists_of_initialise hinit
  -- loading only adds to the log, so the disk is that of the first step until the file is written
  obtain ⟨log₂, hw₂⟩ := s.logsOnly_load w₁
  rcases hload : s.load w₁ with ⟨r, w₂⟩
  rw [hload] at hw₂
  replace hw₂ : w₂ = { w₁ with log := log₂ } := hw₂
  replace hw₂ : w₂ = { w with disk := w₁.disk, log := log₂ } := by rw [hw₂, hw₁]
  rw [Steps.bind_of_ok hinit, Steps.bind_of_ok Steps.get_apply]
  cases r with
  | error f => exact ⟨log₂, w₁.disk, hgrows, .inl ⟨f, by rw [Steps.bind_of_error hload, hw₂]⟩⟩
  | ok old =>
  rw [Steps.bind_of_ok hload]
  have hgrows₂ : Grows IsAdded w.disk w₂.disk := by
    rw [hw₂]
    exact hgrows
  refine ⟨log₂, w₁.disk, hgrows, ?_⟩
  rcases s.write_cases (.record old (s.scanned w₁ items settings)) hgrows₂ with ⟨f, hf⟩ | ⟨m, hok⟩
  · refine .inl ⟨.historyUnwritable s.file f, ?_⟩
    rw [scanned] at hf
    rw [Steps.bind_of_error hf, hw₂]
  · refine .inr ⟨.record old (s.scanned w₁ items settings), m, ?_⟩
    rw [scanned] at hok
    rw [Steps.bind_of_ok hok, hw₂]
    rfl

/-- Whether or not it succeeds, recording a scan keeps all entries but that of the history. -/
theorem at?_of_save {items : List Item} {settings : Option Settings} {r : Except Failure History}
    (hsave : s.save items settings w = (r, w')) {q : Place} (hq : w.disk.at? q ≠ none)
    (hne : q ≠ s.place w.disk) : w'.disk.at? q = w.disk.at? q := by
  obtain ⟨log, d', hgrows, hcases⟩ := s.save_cases items settings w
  have hkept : d'.at? q = w.disk.at? q := by
    rcases hgrows.at?_eq q with heq | ⟨hnone, -⟩
    · exact heq
    · exact absurd hnone hq
  rcases hcases with ⟨f, hf⟩ | ⟨h, m, hok⟩
  · cases hf.symm.trans hsave
    exact hkept
  · cases hok.symm.trans hsave
    exact (at?_put_of_ne (Ne.symm hne)).trans hkept

end MarkerBoard.HistoryStore

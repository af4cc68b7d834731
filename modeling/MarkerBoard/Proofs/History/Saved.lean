import MarkerBoard.Proofs.History.Frame
import MarkerBoard.Proofs.History.Held
import MarkerBoard.Proofs.History.Reload

/-!
# Scans that are saved

A scan that is saved leaves its record in the file of the history. So whatever is loaded afterwards
is that record. There may be nothing to load: the directory of the history goes with the write if
its own path leads through a link that the history replaces.

Main results:

* `HistoryStore.exists_record_of_save` — what is saved by a scan that adds a snapshot.
* `HistoryStore.load_of_save`, `HistoryStore.eq_of_load_of_save` — what is loaded afterwards.
-/
namespace MarkerBoard.HistoryStore

variable {store : HistoryStore} {settings : Option Settings} {items : List Item}
  {w w' v v' : World} {g h : History}

/-- To record a scan adds a snapshot to the history that is found when the directory has been
made. -/
def AddsSnapshot (store : HistoryStore) (w : World) : Prop :=
  History.addsSnapshot (store.current (store.initialise w).2) w.git.currentCommit = true

/-- What is in the log does not matter. -/
theorem AddsSnapshot.withLog (h : store.AddsSnapshot w) (log : List Level) :
    store.AddsSnapshot { w with log } := by
  obtain ⟨log', hlog⟩ := store.ignoresLog_initialise w log
  rw [AddsSnapshot, hlog, current, store.ignoresLog_load.result_eq]
  exact h

/-- The snapshots of a history that is loaded can be written again. -/
theorem isExact_of_load {old : Option History} (hload : store.load w = (.ok old, w')) :
    ∀ h ∈ old, ∀ snap ∈ h.snapshots, snap.stats.IsExact := by
  rintro h rfl
  obtain ⟨_, _, -, -, hread⟩ := holds_of_load hload
  exact (History.isExact_of_ofText? hread).snapshots

/-- A scan that is saved is the record of the scan. If it adds a snapshot, this is the last one. -/
theorem exists_record_of_save (hadds : store.AddsSnapshot w)
    (hsave : store.save items settings w = (.ok g, w')) :
    ∃ (old : Option History) (r : Scanned), r.items = items ∧ r.settings = settings ∧
      g = .record old r ∧ g.snapshots.getLast? = some r.snapshot := by
  obtain ⟨w₁, old, w₂, hinit, hload, rfl, -⟩ := exists_of_save hsave
  refine ⟨old, store.scanned w₁ items settings, rfl, rfl, rfl, ?_⟩
  -- making the directory has not changed what git tells
  obtain ⟨log, hw₁, -⟩ := exists_of_initialise hinit
  have hgit : w₁.git = w.git := by rw [hw₁]
  have hadds₁ : History.addsSnapshot old w₁.git.currentCommit = true := by
    rw [AddsSnapshot, hinit, current, hload] at hadds
    rwa [hgit]
  show (History.snapshotsAfter old (store.scanned w₁ items settings)).getLast? = _
  rw [History.snapshotsAfter, scanned, hadds₁]
  exact History.getLast?_newest_concat ..

/-- The old snapshots come from a text, and the new one is a count. So what is saved can be read
again. -/
theorem isExact_of_save (hsave : store.save items settings w = (.ok g, w')) : g.IsExact := by
  obtain ⟨w₁, old, w₂, -, hload, rfl, -⟩ := exists_of_save hsave
  exact History.isExact_record (isExact_of_load hload) _

/-- What has been saved is loaded, if the directory is still there. Only the disk matters. -/
theorem load_of_save (hsave : store.save items settings w = (.ok g, w'))
    (hdir : w'.disk.isDir store.dir = true) (hv : v.disk = w'.disk) :
    store.load v = (.ok (some g), v) := by
  obtain ⟨w₁, old, w₂, -, -, -, hwrite⟩ := exists_of_save hsave
  obtain ⟨d', hrep, rfl⟩ := exists_of_write hwrite
  obtain ⟨m, hhas⟩ := has_of_replaced hrep hdir
  replace hv : v.disk = d' := hv
  rw [← hv] at hhas
  exact load_of_has (isExact_of_save hsave) hhas

/-- Whatever is loaded after a scan has been saved is what has been saved. -/
theorem eq_of_load_of_save (hd : w.disk.IsTree)
    (hsave : store.save items settings w = (.ok g, w')) (hv : v.disk = w'.disk)
    (hload : store.load v = (.ok (some h), v')) : h = g := by
  obtain ⟨w₁, old, w₂, hinit, hold, -, hwrite⟩ := exists_of_save hsave
  obtain ⟨d', hrep, rfl⟩ := exists_of_write hwrite
  have htree : w₂.disk.IsTree := by
    rw [disk_of_load hold]
    exact isTree_of_initialise hd hinit
  -- the bytes that are read are those that have been written, and so is the text
  obtain ⟨bytes, t, hbytes, htext, hread⟩ := holds_of_load hload
  replace hv : v.disk = d' := hv
  rw [hv] at hbytes
  have hwritten : bytes = Utf8.encode g.toText := Action.eq_of_bytes_replaced htree hrep hbytes
  rw [hwritten, Utf8.decode_encode] at htext
  cases htext
  rw [History.ofText?_toText (isExact_of_save hsave)] at hread
  exact (Option.some.inj hread).symm

end MarkerBoard.HistoryStore

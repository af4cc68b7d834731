import MarkerBoard.Proofs.History.Replay

/-!
# Runs of a store

Scans are saved and old snapshots are dropped, in any order and any number of times, while the clock
does not run back. The history is read from its file and written to it each time.

A run carries the log of all snapshots that have been added in it, and the time of the first scan.
The invariant is `HistoryStore.Keeps`: before the first scan nothing has touched the disk, and from
then on the file holds a history that records the log.

Main results:

* `HistoryStore.Keeps.afterSave`, `HistoryStore.Keeps.afterCleanup` — each operation preserves the
  invariant.
* `HistoryStore.Run.keeps` — so does a run.
* `HistoryStore.load_of_run` — after any run, the history that is loaded records the log.
-/
namespace MarkerBoard.HistoryStore

open Disk

variable {s : HistoryStore} {d₀ : Disk} {w₀ w w' : World} {log : List Snapshot}
  {created : Option Moment} {o : Surroundings} {h : History}

/-- The history that there is, if it can be loaded. -/
def current (s : HistoryStore) (w : World) : Option History :=
  match (s.load w).1 with
  | .ok old => old
  | .error _ => none

/-- A run of operations that succeed, from a world to a world, with the snapshots that have been
added and the time of the first scan. -/
inductive Run (s : HistoryStore) (w₀ : World) : List Snapshot → Option Moment → World → Prop
  | start : Run s w₀ [] none w₀
  | save {log : List Snapshot} {created : Option Moment} {w w' : World} {o : Surroundings}
      {items : List Item} {settings : Option Settings} {h : History}
      (hrun : Run s w₀ log created w) (hclock : w.utcNow.instant ≤ o.utcNow.instant)
      (hsave : s.save items settings (w.within o) = (.ok h, w')) :
      Run s w₀
        (log ++ History.added (s.current (w.within o)) (s.scanned (w.within o) items settings))
        (some (created.getD o.utcNow)) w'
  | cleanup {log : List Snapshot} {created : Option Moment} {w w' : World} {o : Surroundings}
      {days : Int} {n : Nat}
      (hrun : Run s w₀ log created w) (hclock : w.utcNow.instant ≤ o.utcNow.instant)
      (hclean : s.cleanup days (w.within o) = (.ok n, w')) : Run s w₀ log created w'

/-! ## The invariant -/

/-- The snapshots are in the order of time, and none is from the future. -/
structure Timely (log : List Snapshot) (now : Moment) : Prop where
  inOrder : History.InOrder log
  past : ∀ e ∈ log, e.time.instant ≤ now.instant

/-- What a disk keeps of a log, if the first scan was at a time or has not been yet. -/
def Keeps (s : HistoryStore) (d₀ d : Disk) (log : List Snapshot) : Option Moment → Prop
  | none => log = [] ∧ d = d₀
  | some t => ∃ (h : History) (m : Nat),
    s.Has d (some (.file (Utf8.encode h.toText) m)) ∧ h.IsExact ∧ h.Records log t

theorem Timely.later {now later : Moment} (ht : Timely log now)
    (hclock : now.instant ≤ later.instant) : Timely log later :=
  ⟨ht.inOrder, fun e he => Int.le_trans (ht.past e he) hclock⟩

/-- A scan adds the newest snapshot. -/
theorem Timely.added {old : Option History} {r : Scanned} (ht : Timely log r.time) :
    Timely (log ++ History.added old r) r.time := by
  have hnew : ∀ e ∈ History.added old r, e.time = r.time := by
    intro e he
    rw [History.added] at he
    split at he
    · rw [List.mem_singleton.1 he]
      rfl
    · exact absurd he List.not_mem_nil
  have hone : History.InOrder (History.added old r) := by
    rw [History.added]
    split
    · exact List.pairwise_singleton _ _
    · exact .nil
  refine ⟨List.pairwise_append.2 ⟨ht.inOrder, hone, fun a ha b hb => ?_⟩, fun e he => ?_⟩
  · rw [hnew b hb]
    exact ht.past a ha
  · rcases List.mem_append.1 he with he | he
    · exact ht.past e he
    · exact Int.le_of_eq (by rw [hnew e he])

/-- The history is loaded, if there has been a scan. -/
theorem Keeps.exists_load {t : Moment} (hk : s.Keeps d₀ w.disk log (some t)) :
    ∃ h, s.load w = (.ok (some h), w) ∧ h.Records log t := by
  obtain ⟨h, m, hhas, hx, hr⟩ := hk
  exact ⟨h, load_of_has hx hhas, hr⟩

/-! ## Steps -/

/-- What a store keeps of a log is written. -/
theorem Keeps.exists_written (hk : s.Keeps d₀ w.disk log created) :
    ∃ old, s.Written d₀ w.disk old ∧ match created with
      | none => log = [] ∧ old = none
      | some t => ∃ h, old = some h ∧ h.Records log t := by
  cases created with
  | none => exact ⟨none, hk.2, hk.1, rfl⟩
  | some t =>
    obtain ⟨h, m, hhas, hx, hr⟩ := hk
    exact ⟨some h, ⟨⟨m, hhas⟩, hx⟩, h, rfl, hr⟩

theorem Written.keeps {t : Moment} (hw : s.Written d₀ w.disk (some h)) (hr : h.Records log t) :
    s.Keeps d₀ w.disk log (some t) := by
  obtain ⟨⟨m, hhas⟩, hx⟩ := hw
  exact ⟨h, m, hhas, hx, hr⟩

/-- Saving a scan. -/
theorem Keeps.afterSave {items : List Item} {settings : Option Settings}
    (hplace : d₀.at? (s.place d₀) = none) (hk : s.Keeps d₀ w.disk log created)
    (hsave : s.save items settings w = (.ok h, w')) :
    s.Keeps d₀ w'.disk (log ++ History.added (s.current w) (s.scanned w items settings))
      (some (created.getD w.utcNow)) ∧ w'.utcNow = w.utcNow := by
  obtain ⟨old, hw, hlog⟩ := hk.exists_written
  obtain ⟨rfl, hwritten, hnow⟩ := hw.afterSave hplace hsave
  obtain ⟨_, hload⟩ := hw.exists_load hplace
  have hcurrent : s.current w = old := by rw [current, hload]
  refine ⟨hwritten.keeps ?_, hnow⟩
  rw [hcurrent]
  cases created with
  | none =>
    obtain ⟨rfl, rfl⟩ := hlog
    exact History.records_record_none _
  | some t =>
    obtain ⟨g, rfl, hr⟩ := hlog
    exact hr.record _

/-- Dropping old snapshots. -/
theorem Keeps.afterCleanup {days : Int} {n : Nat} (hplace : d₀.at? (s.place d₀) = none)
    (hk : s.Keeps d₀ w.disk log created) (hlog : History.InOrder log)
    (hclean : s.cleanup days w = (.ok n, w')) :
    s.Keeps d₀ w'.disk log created ∧ w'.utcNow = w.utcNow := by
  obtain ⟨old, hw, hold⟩ := hk.exists_written
  obtain ⟨hwritten, hnow⟩ := hw.afterCleanup hplace hclean
  refine ⟨?_, hnow⟩
  cases created with
  | none =>
    obtain ⟨rfl, rfl⟩ := hold
    exact ⟨rfl, hwritten⟩
  | some t =>
    obtain ⟨g, rfl, hr⟩ := hold
    have htidied : (g.tidied (History.cutoff w.utcNow days) w.utcNow).Records log t := by
      -- the history is not touched, or its old snapshots are dropped
      rw [History.tidied]
      split
      · exact hr
      · exact hr.forget hlog _ _
    exact Written.keeps hwritten htidied

/-! ## Runs -/

/-- A run preserves the invariant. -/
theorem Run.keeps (hplace : w₀.disk.at? (s.place w₀.disk) = none) (hrun : s.Run w₀ log created w) :
    s.Keeps w₀.disk w.disk log created ∧ Timely log w.utcNow := by
  induction hrun with
  | start => exact ⟨⟨rfl, rfl⟩, .nil, fun e he => absurd he List.not_mem_nil⟩
  | @save log created w w' o items settings h _ hclock hsave ih =>
    obtain ⟨hk, ht⟩ := ih
    have hk' : s.Keeps w₀.disk (w.within o).disk log created := hk
    obtain ⟨hkeeps, hnow⟩ := hk'.afterSave hplace hsave
    refine ⟨hkeeps, ?_⟩
    rw [hnow]
    exact (ht.later hclock).added
  | @cleanup log created w w' o days n _ hclock hclean ih =>
    obtain ⟨hk, ht⟩ := ih
    have hk' : s.Keeps w₀.disk (w.within o).disk log created := hk
    obtain ⟨hkeeps, hnow⟩ := hk'.afterCleanup hplace ht.inOrder hclean
    refine ⟨hkeeps, ?_⟩
    rw [hnow]
    exact ht.later hclock

/-- From a directory without a history, after any run there is none yet, and nothing has been added,
or the history records all that has been added since the first scan. -/
theorem load_of_run (hplace : w₀.disk.at? (s.place w₀.disk) = none)
    (hrun : s.Run w₀ log created w) :
    match created with
    | none => log = [] ∧ ∃ notes, s.load w = (.ok none, { w with log := notes })
    | some t => ∃ h, s.load w = (.ok (some h), w) ∧ h.Records log t := by
  have hk := (hrun.keeps hplace).1
  cases created with
  | none =>
    obtain ⟨hnil, hd⟩ := hk
    rw [← hd] at hplace
    exact ⟨hnil, load_of_place hplace⟩
  | some t => exact hk.exists_load

/-- A disk with the directory of a board, its ignore file and, it may be, its history. -/
def sampleDisk (history : Option (List UInt8)) : Disk where
  here := ⟨['/'], []⟩
  entries := [(["b".toList], .dir), (["b".toList, ".gitignore".toList], .file [] 0o644)] ++
    (history.map fun bytes => (["b".toList, fileName], Node.file bytes 0o600)).toList

/-- The store of that directory. -/
def sampleStore : HistoryStore := ⟨⟨['/'], ["b".toList]⟩, ⟨['/'], []⟩⟩

/-- Surroundings in which git tells nothing. -/
def sampleSurroundings : Surroundings := ⟨[], .silent, .first, .first, .none, "t".toList⟩

/-- A world with a history, if there is one, in those surroundings. -/
def sampleWorld (history : Option (List UInt8)) : World :=
  ⟨sampleDisk history, [], .silent, .first, .first, .none, "t".toList, []⟩

/-- The history after one scan that has found nothing. -/
def sampleHistory : History := .record none (sampleStore.scanned (sampleWorld none) [] none)

theorem replaced_sampleWorld (history : Option (List UInt8)) (bytes : List UInt8) :
    Action.replaced (sampleWorld history) sampleStore.file false bytes =
      .ok (sampleDisk (some bytes)) := by
  cases history with
  | none => cbv
  | some old => cbv

theorem initialise_sampleWorld (history : Option (List UInt8)) :
    sampleStore.initialise (sampleWorld history) = (.ok (), sampleWorld history) := by
  cases history with
  | none => cbv
  | some old => cbv

theorem load_sampleWorld_none :
    sampleStore.load (sampleWorld none) = (.ok none, sampleWorld none) := by
  cbv

theorem isDir_sampleWorld (bytes : List UInt8) :
    (sampleWorld (some bytes)).disk.isDir sampleStore.dir = true := by
  cbv

theorem load_of_run_sampleWorld :
    ∃ w h, sampleStore.Run (sampleWorld none) sampleHistory.snapshots (some .first) w ∧
      sampleStore.load w = (.ok (some h), w) ∧ h.Records sampleHistory.snapshots .first := by
  have hplace : (sampleWorld none).disk.at? (sampleStore.place (sampleWorld none).disk) = none := by
    cbv
  have hwithin : ∀ history, (sampleWorld history).within sampleSurroundings =
      sampleWorld history := fun _ => rfl
  have hsave : sampleStore.save [] none ((sampleWorld none).within sampleSurroundings) =
      (.ok sampleHistory, sampleWorld (some (Utf8.encode sampleHistory.toText))) :=
    save_of_ok (initialise_sampleWorld none) load_sampleWorld_none (replaced_sampleWorld none _)
  have hadded : [] ++ History.added
      (sampleStore.current ((sampleWorld none).within sampleSurroundings))
      (sampleStore.scanned ((sampleWorld none).within sampleSurroundings) [] none) =
      sampleHistory.snapshots := by
    rw [hwithin, current, load_sampleWorld_none]
    rfl
  have hclock : ∀ history, (sampleWorld history).utcNow.instant ≤
      sampleSurroundings.utcNow.instant := fun _ => Int.le_refl _
  have hsaved := Run.save .start (hclock none) hsave
  rw [hadded] at hsaved
  obtain ⟨h, hkept, -⟩ := (hsaved.keeps hplace).1.exists_load
  have hreach : Moment.first.Reaches 0 := by decide
  obtain ⟨n, w, hclean⟩ := exists_cleanup hkept hreach
    fun bytes => ⟨_, replaced_sampleWorld _ bytes⟩
  have hrun := hsaved.cleanup (hclock _) hclean
  obtain ⟨h', hload', hrecords⟩ := load_of_run hplace hrun
  exact ⟨w, h', hrun, hload', hrecords⟩

end MarkerBoard.HistoryStore

import MarkerBoard.Board.Settings
import MarkerBoard.Git
import MarkerBoard.History.Basic

/-!
# Recording scans

A history is renewed by each scan that is recorded. A scan at a new commit also adds a snapshot;
so does every scan whose commit git does not tell. Only the newest snapshots are kept, and those
that are too old can be dropped.
-/
namespace MarkerBoard

namespace Settings

/-- The place of a status in the order of the columns; unknown statuses come after as many
places as there are different columns. Of columns with one identifier the last one counts. -/
def rank (s : Settings) (status : Text) : Nat :=
  let ids := s.columns.map Column.id
  match ids.reverse.idxOf? status with
  | some back => ids.length - 1 - back
  | none => ids.eraseDups.length

/-- Values under statuses in the order of the columns. -/
def inColumnOrder {α : Type} (s : Settings) (m : Keyed α) : Keyed α :=
  m.mergeSort fun a b => decide (s.rank a.1 ≤ s.rank b.1)

end Settings

namespace Stats

/-- The tasks of a scan, counted. With settings, the statuses come in the order of the
columns. -/
def ofItems (items : List Item) (s : Option Settings) : Stats :=
  let byStatus := Keyed.tally (items.map Item.status)
  { total := items.length
    byStatus := match s with
      | some s => s.inColumnOrder byStatus
      | none => byStatus
    byKeyword := Keyed.tally (items.map Item.keyword)
    byPriority := Keyed.tally (items.map fun i => i.priority.name)
    tasks := items.map Task.ofItem }

end Stats

/-- A scan to be recorded. -/
structure Scanned where
  projectPath : Text
  time : Moment
  git : Git
  items : List Item
  /-- The settings that order the counts. -/
  settings : Option Settings

namespace Scanned

/-- The tasks of the scan, counted. -/
def stats (r : Scanned) : Stats := .ofItems r.items r.settings

/-- The snapshot of the scan. -/
def snapshot (r : Scanned) : Snapshot where
  branch := r.git.currentBranch
  commit := r.git.currentCommit
  commitShort := r.git.currentCommitShort
  message := r.git.subject r.git.currentCommit
  time := r.time
  stats := r.stats

end Scanned

namespace History

/-- The greatest number of snapshots in a history. -/
def snapshotLimit : Nat := 50

/-- The newest snapshots, as many as a history may have. -/
def newest (snapshots : List Snapshot) : List Snapshot :=
  snapshots.drop (snapshots.length - snapshotLimit)

/-- A scan at a commit adds a snapshot to a history. -/
def addsSnapshot (old : Option History) (commit : Text) : Bool :=
  match old with
  | none => true
  | some h => h.commit != commit || commit == Git.unknown || commit == []

/-- The snapshots after a scan. -/
def snapshotsAfter (old : Option History) (r : Scanned) : List Snapshot :=
  let before := (old.map snapshots).getD []
  if addsSnapshot old r.git.currentCommit then newest (before ++ [r.snapshot]) else before

/-- The history after a scan. -/
def record (old : Option History) (r : Scanned) : History where
  projectPath := r.projectPath
  lastScanAt := r.time
  branch := r.git.currentBranch
  commit := r.git.currentCommit
  commitShort := r.git.currentCommitShort
  total := r.stats.total
  byStatus := r.stats.byStatus
  byKeyword := r.stats.byKeyword
  byFile := Keyed.tally (r.items.map Item.file)
  tasks := r.stats.tasks
  snapshots := snapshotsAfter old r
  createdAt := (old.map createdAt).getD r.time
  updatedAt := r.time
  extra := []

/-- The instant that lies a number of days before a moment. -/
def cutoff (now : Moment) (days : Int) : Int := now.instant - days * Moment.dayLength

/-- The history without the snapshots from a cutoff or before. -/
def forget (h : History) (cutoff : Int) (now : Moment) : History :=
  { h with
    snapshots := h.snapshots.filter fun s => decide (cutoff < s.time.instant)
    updatedAt := now }

end History
end MarkerBoard

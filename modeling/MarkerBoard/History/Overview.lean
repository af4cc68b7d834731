import MarkerBoard.History.Trends

/-!
# Overviews of the recorded tasks

The tasks of the latest recorded scan: how many are in each column, how far the board has got,
and how the tasks are spread over files, keywords and statuses.
-/
namespace MarkerBoard

namespace History

/-- The status under which a task is counted: done tasks count for the last column. -/
def countedStatus (doneId : Option Text) (t : Task) : Text :=
  match doneId with
  | some id => if t.isDone then id else t.status
  | none => t.status

/-- The number of tasks in each column and in each other status. -/
def statusCounts (h : History) (b : Settings) : Keyed Int :=
  (h.tasks.map (countedStatus b.doneId?)).foldl (fun m k => Keyed.bump k m)
    (Keyed.ofList (b.columns.map fun c => (c.id, 0)))

/-- How many of the tasks are done. -/
def doneCount (h : History) (b : Settings) : Int :=
  match b.doneId? with
  | some id => (Keyed.get? id (h.statusCounts b)).getD 0
  | none => 0

/-- The percentage of done tasks. -/
def progress (h : History) (b : Settings) : Binary64 := percentage (h.doneCount b) h.total

/-- Tasks under a key. -/
def group (key : Task → Text) (ts : List Task) : Keyed (List Task) :=
  ts.foldl (fun m t => Keyed.push (key t) t m) []

/-- The tasks that matter most. -/
def urgent (ts : List Task) : List Task := ts.filter (·.priority = .high)

end History

/-- The tasks of the latest recorded scan in groups. -/
structure Analysis where
  total : Nat
  byFile : Keyed (List Task)
  byKeyword : Keyed (List Task)
  byStatus : Keyed (List Task)
  urgent : List Task
  /-- Missing while there are no two snapshots to compare. -/
  changes : Option Changes

namespace Analysis

/-- The tasks of a history in groups. -/
def of (b : Settings) (h : History) : Analysis where
  total := h.tasks.length
  byFile := History.group Task.file h.tasks
  byKeyword := History.group Task.keyword h.tasks
  byStatus := b.inColumnOrder (History.group Task.status h.tasks)
  urgent := History.urgent h.tasks
  changes := (lastTwo? h.snapshots).map fun two =>
    .between two.1.stats.tasks two.2.stats.tasks

end Analysis

/-- The tasks of one file. -/
structure FileGroup where
  tasks : List Task
  urgent : Nat
  /-- How many tasks each column has. -/
  counts : Keyed Int

namespace FileGroup

/-- Counts the tasks of a file. Only statuses of columns are counted. -/
def of (b : Settings) (ts : List Task) : FileGroup where
  tasks := ts
  urgent := (History.urgent ts).length
  counts := Keyed.ofList (b.columns.map fun c =>
    (c.id, (ts.countP fun t => t.status = c.id : Int)))

end FileGroup

namespace HistoryStore

/-- The tasks of the latest recorded scan in groups. -/
def analysis (s : HistoryStore) (b : Settings) : Action (Option Analysis) := do
  pure ((← s.load).map (.of b))

/-- The tasks of the latest recorded scan by their files. -/
def fileGroups (s : HistoryStore) (b : Settings) : Action (Option (Keyed FileGroup)) := do
  pure ((← s.load).map fun h => Keyed.mapValues (.of b) (History.group Task.file h.tasks))

end HistoryStore
end MarkerBoard

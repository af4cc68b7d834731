import MarkerBoard.History.Changes

/-!
# Trends

How the number of tasks in each column, the share of done tasks and the number of tasks of each
keyword have changed from snapshot to snapshot. A task counts as done also by its done mark.
-/
namespace MarkerBoard

/-- The share of a part in a total, as a percentage. -/
def percentage (part total : Int) : Binary64 :=
  if total = 0 then .finite false 0 Binary64.minExponent
  else (Binary64.ofQuotient part total).mulNat 100

namespace Stats

/-- How many tasks are in a column of a board whose last column is the given one. -/
def countIn (s : Stats) (columnId doneId : Text) : Nat :=
  s.tasks.countP fun t => t.status = columnId || (columnId = doneId && t.isDone)

/-- How many tasks are done. -/
def countDone (s : Stats) (doneId : Option Text) : Nat :=
  s.tasks.countP fun t => t.isDone || some t.status = doneId

/-- The number of tasks under each column name. -/
def columnCounts (s : Stats) (b : Settings) : Keyed Int :=
  Keyed.ofList (b.columns.map fun c => (c.name, (s.countIn c.id (b.doneId?.getD []) : Int)))

end Stats

/-- The columns at one snapshot. -/
structure TimelineEntry where
  time : Moment
  commitShort : Text
  branch : Text
  total : Int
  counts : Keyed Int

/-- The percentage of done tasks at one snapshot. -/
structure CompletionPoint where
  time : Moment
  commitShort : Text
  rate : Binary64

/-- The number of tasks of one keyword at one snapshot. -/
structure KeywordPoint where
  time : Moment
  commitShort : Text
  count : Int

/-- The course of a board. -/
structure Trends where
  timeline : List TimelineEntry
  completion : List CompletionPoint
  byKeyword : Keyed (List KeywordPoint)

namespace Snapshot

/-- The columns at the snapshot. -/
def timelineEntry (s : Snapshot) (b : Settings) : TimelineEntry :=
  ⟨s.time, s.commitShort, s.branch, s.stats.total, s.stats.columnCounts b⟩

/-- The percentage of done tasks at the snapshot. -/
def completionPoint (s : Snapshot) (b : Settings) : CompletionPoint :=
  ⟨s.time, s.commitShort, percentage (s.stats.countDone b.doneId?) s.stats.total⟩

/-- The number of tasks of each keyword at the snapshot. -/
def keywordPoints (s : Snapshot) : List (Text × KeywordPoint) :=
  s.stats.byKeyword.map fun e => (e.1, ⟨s.time, s.commitShort, e.2⟩)

end Snapshot

namespace Trends

/-- The course of a board over snapshots. -/
def of (b : Settings) (snapshots : List Snapshot) : Trends where
  timeline := snapshots.map (·.timelineEntry b)
  completion := snapshots.map (·.completionPoint b)
  byKeyword := (snapshots.flatMap Snapshot.keywordPoints).foldl (fun m e => Keyed.push e.1 e.2 m) []

end Trends

/-- Two snapshots side by side. -/
structure Comparison where
  current : Snapshot
  previous : Snapshot
  /-- By how many tasks each column has grown, under the name of the column. -/
  growth : Keyed Int

namespace Comparison

/-- Compares a snapshot with the one before it. -/
def of (b : Settings) (previous current : Snapshot) : Comparison where
  current
  previous
  growth :=
    let count (s : Snapshot) (c : Column) : Int := s.stats.countIn c.id (b.doneId?.getD [])
    Keyed.ofList (b.columns.map fun c => (c.name, count current c - count previous c))

end Comparison

namespace HistoryStore

/-- The course of a board. -/
def trends (s : HistoryStore) (b : Settings) : Action Trends := do
  pure (.of b (← s.snapshots))

/-- Compares the last two snapshots. -/
def compare (s : HistoryStore) (b : Settings) : Action Comparison := do
  let (previous, current) ← s.lastTwo
  pure (.of b previous current)

end HistoryStore
end MarkerBoard

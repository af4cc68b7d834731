import MarkerBoard.History.Store

/-!
# Changes between snapshots

Two sets of tasks are compared by the hashes of the tasks. A task is new if its hash is, gone if
its hash is, and moved if it has another status. Of tasks with one hash the last one counts.
-/
namespace MarkerBoard

/-- A task with another status than before. -/
structure StatusChange where
  task : Task
  oldStatus : Text
  newStatus : Text

/-- What is different between two sets of tasks. -/
structure Changes where
  added : List Task
  removed : List Task
  moved : List StatusChange

namespace Changes

/-- Tasks under their hashes. -/
def byHash (ts : List Task) : Keyed Task := Keyed.ofList (ts.map fun t => (t.hash, t))

/-- The change of a task that was there before. -/
def statusChange? (old : Keyed Task) (t : Task) : Option StatusChange :=
  (Keyed.get? t.hash old).bind fun o =>
    if o.status = t.status then none else some ⟨t, o.status, t.status⟩

/-- The tasks of a keyed list whose hashes another one has not. -/
def missingFrom (m others : Keyed Task) : List Task :=
  (m.filter fun e => (Keyed.get? e.1 others).isNone).map Prod.snd

/-- What is different between old and new tasks. -/
def between (old new : List Task) : Changes :=
  let old := byHash old
  let new := byHash new
  ⟨missingFrom new old, missingFrom old new,
    (new.map Prod.snd).filterMap (statusChange? old)⟩

/-- How many tasks are different in each way. -/
def summary (c : Changes) : List (String × Nat) :=
  [("added", c.added.length), ("removed", c.removed.length), ("status_changed", c.moved.length)]

end Changes

/-- The last two snapshots, the older one first. -/
def lastTwo? (snapshots : List Snapshot) : Option (Snapshot × Snapshot) :=
  match snapshots.reverse with
  | current :: previous :: _ => some (previous, current)
  | _ => none

namespace HistoryStore

/-- The last two snapshots, the older one first. -/
def lastTwo (s : HistoryStore) : Action (Snapshot × Snapshot) := do
  let snapshots ← s.snapshots
  match lastTwo? snapshots with
  | some two => pure two
  | none => throw (.tooFewSnapshots snapshots.length)

/-- What has changed between the last two snapshots. -/
def changes (s : HistoryStore) : Action Changes := do
  let (previous, current) ← s.lastTwo
  pure (.between previous.stats.tasks current.stats.tasks)

end HistoryStore
end MarkerBoard

import MarkerBoard.History.Task

/-!
# The history of a board

A history holds the tasks of the latest scan with their counts, and a snapshot for every commit
at which a scan was recorded, the oldest one first.
-/
namespace MarkerBoard

/-- The tasks of one scan and how many there are of each kind. -/
structure Stats where
  total : Int
  byStatus : Keyed Int
  byKeyword : Keyed Int
  byPriority : Keyed Int
  tasks : List Task
deriving DecidableEq

/-- The tasks at one commit. -/
structure Snapshot where
  branch : Text
  commit : Text
  commitShort : Text
  message : Text
  time : Moment
  stats : Stats
deriving DecidableEq

/-- All that is recorded about a board. -/
structure History where
  projectPath : Text
  lastScanAt : Moment
  branch : Text
  commit : Text
  commitShort : Text
  total : Int
  byStatus : Keyed Int
  byKeyword : Keyed Int
  byFile : Keyed Int
  tasks : List Task
  /-- The snapshots in the order of their arrival. -/
  snapshots : List Snapshot
  createdAt : Moment
  updatedAt : Moment
  /-- Fields of other programs, kept as they are. -/
  extra : Keyed Json
deriving DecidableEq

/-! ## JSON -/

namespace Stats

/-- No tasks at all. -/
def empty : Stats := ⟨0, [], [], [], []⟩

/-- Counts under keys. -/
def counts : Reader (Keyed Int) := .dictionary .integer

/-- Reads the tasks of one scan. -/
def read : Reader Stats := .record fun fields =>
  mk <$> Reader.optional "total" .integer 0 fields
    <*> Reader.optional "by_status" counts [] fields
    <*> Reader.optional "by_type" counts [] fields
    <*> Reader.optional "by_priority" counts [] fields
    <*> Reader.optional "items" (.list Task.read) [] fields

/-- The tasks of one scan as JSON. -/
def toJson (s : Stats) : Json := .record [
  ("total", .int s.total), ("by_status", .dictionary .int s.byStatus),
  ("by_type", .dictionary .int s.byKeyword), ("by_priority", .dictionary .int s.byPriority),
  ("items", .arr (s.tasks.map Task.toJson))]

end Stats

namespace Snapshot

/-- Reads a snapshot. -/
def read : Reader Snapshot := .record fun fields =>
  mk <$> Reader.required "branch" .text fields
    <*> Reader.required "commit" .text fields
    <*> Reader.required "commit_short" .text fields
    <*> Reader.optional "commit_message" .text [] fields
    <*> Reader.required "timestamp" .moment fields
    <*> Reader.optional "history" Stats.read .empty fields

/-- A snapshot as JSON. -/
def toJson (s : Snapshot) : Json := .record [
  ("branch", .str s.branch), ("commit", .str s.commit), ("commit_short", .str s.commitShort),
  ("commit_message", .str s.message), ("timestamp", .moment s.time),
  ("history", s.stats.toJson)]

end Snapshot

namespace History

/-- The fields of a history that are its own. -/
def ownKeys : List String := [
  "project_path", "last_scan_at", "git_branch", "git_commit", "git_commit_short", "total_items",
  "items_by_status", "items_by_type", "items_by_file", "current_items", "branch_history",
  "created_at", "updated_at"]

/-- Reads a history. -/
def read : Reader History := .record fun fields =>
  mk <$> Reader.required "project_path" .text fields
    <*> Reader.required "last_scan_at" .moment fields
    <*> Reader.required "git_branch" .text fields
    <*> Reader.required "git_commit" .text fields
    <*> Reader.required "git_commit_short" .text fields
    <*> Reader.optional "total_items" .integer 0 fields
    <*> Reader.optional "items_by_status" Stats.counts [] fields
    <*> Reader.optional "items_by_type" Stats.counts [] fields
    <*> Reader.optional "items_by_file" Stats.counts [] fields
    <*> Reader.optional "current_items" (.list Task.read) [] fields
    <*> Reader.optional "branch_history" (.list Snapshot.read) [] fields
    <*> Reader.required "created_at" .moment fields
    <*> Reader.required "updated_at" .moment fields
    <*> pure (Reader.others ownKeys fields)

/-- The fields of a history as JSON, the extra ones last. -/
def toJson (h : History) : Json := .obj (
  [("project_path", .str h.projectPath), ("last_scan_at", .moment h.lastScanAt),
    ("git_branch", .str h.branch), ("git_commit", .str h.commit),
    ("git_commit_short", .str h.commitShort), ("total_items", .int h.total),
    ("items_by_status", .dictionary .int h.byStatus),
    ("items_by_type", .dictionary .int h.byKeyword),
    ("items_by_file", .dictionary .int h.byFile),
    ("current_items", .arr (h.tasks.map Task.toJson)),
    ("branch_history", .arr (h.snapshots.map Snapshot.toJson)),
    ("created_at", .moment h.createdAt), ("updated_at", Json.moment h.updatedAt)].map
    (fun e => (e.1.toList, e.2)) ++ h.extra)

end History
end MarkerBoard

import MarkerBoard.History.Scanned
import MarkerBoard.Json.Printer
import MarkerBoard.Json.Reader
import MarkerBoard.World

/-!
# The history on disk

The history of a board is a file among the board's own files. It is replaced as a whole, so a
write that fails leaves the old one. A history that cannot be read counts as none, with a note in
the log.
-/
namespace MarkerBoard

mutual
/-- The value with null for the numbers that are not finite. -/
def Json.finite : Json → Json
  | .float .nan => .null
  | .float (.infinite _) => .null
  | .arr vs => .arr (Json.finiteList vs)
  | .obj fields => .obj (Json.finiteFields fields)
  | v => v

/-- The values with null for the numbers that are not finite. -/
def Json.finiteList : List Json → List Json
  | [] => []
  | v :: vs => v.finite :: Json.finiteList vs

/-- The fields with null for the numbers that are not finite. -/
def Json.finiteFields : List (Text × Json) → List (Text × Json)
  | [] => []
  | (k, v) :: fields => (k, v.finite) :: Json.finiteFields fields
end

/-- The history as the text of its file. -/
def History.toText (h : History) : Text := h.toJson.finite.print ++ ['\n']

/-- The history that a text holds, if it is one. -/
def History.ofText? (t : Text) : Option History :=
  (Json.read? t).bind fun v => (History.read v).toOption

/-- Where the history of a project is kept. -/
structure HistoryStore where
  /-- The directory of the board's own files. -/
  dir : Path
  project : Path

namespace HistoryStore

/-- The path of the history. -/
def file (s : HistoryStore) : Path := s.dir.child "items_history.json".toList

/-- The path of the ignore file beside the history. -/
def ignoreFile (s : HistoryStore) : Path := s.dir.child ".gitignore".toList

/-- What the ignore file says. -/
def ignoreText : Text :=
  ("# Kodo temporary files\n*.tmp\n*.log\n\n" ++
    "# Keep the history but ignore temporary data\n!items_history.json\n").toList

/-- Makes the directory and the ignore file, unless they are there. -/
def initialise (s : HistoryStore) : Action Unit := do
  let w ← get
  let (made, disk) := w.disk.makePath w.refusals.makeDirectory s.dir
  modify fun w => { w with disk }
  match made with
  | .error f => throw (.historyUnwritable s.dir f)
  | .ok () =>
    if !disk.contains s.ignoreFile then
      match disk.write s.ignoreFile (Utf8.encode ignoreText) with
      | .ok disk => modify fun w => { w with disk }
      | .error _ => Action.note .warning

/-- Loads the history. -/
def load (s : HistoryStore) : Action (Option History) := do
  match ← Action.readText s.file with
  | .error (.disk (.onPath .missing _)) => pure none
  | .error (.disk _) => Action.note .warning; pure none
  | .error (.encoding f) => throw (.undecodable f)
  | .ok text => match History.ofText? text with
    | some h => pure (some h)
    | none => Action.note .error; pure none

/-- Replaces the history. -/
def write (s : HistoryStore) (h : History) : Action Unit := do
  match ← Action.replace s.file false h.toText with
  | .ok () => pure ()
  | .error f => throw (.historyUnwritable s.file f)

/-- Records a scan. -/
def save (s : HistoryStore) (items : List Item) (settings : Option Settings) : Action History := do
  s.initialise
  let w ← get
  let h := History.record (← s.load) ⟨s.project.toText, w.utcNow, w.git, items, settings⟩
  s.write h
  pure h

/-- Drops the snapshots that are older than a number of days, and tells how many these were. -/
def cleanup (s : HistoryStore) (days : Int) : Action Nat := do
  match ← s.load with
  | none => pure 0
  | some h =>
    let now := (← get).utcNow
    if longestSpan < days.natAbs then throw (.spanTooLong days)
    else if now.dayNumber - days < 1 ∨ Calendar.lastDay < now.dayNumber - days then
      throw .dateOutOfRange
    else
      let kept := h.forget (History.cutoff now days) now
      let dropped := h.snapshots.length - kept.snapshots.length
      if dropped ≠ 0 then s.write kept
      pure dropped

/-- The snapshots, the oldest one first. -/
def snapshots (s : HistoryStore) : Action (List Snapshot) := do
  pure (((← s.load).map History.snapshots).getD [])

end HistoryStore
end MarkerBoard

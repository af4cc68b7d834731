import MarkerBoard.Board.Priority

/-!
# Items

An item is one marker comment: what it says, where it is, and the history of its status. The
last entry of the history tells how the item got its status.
-/
namespace MarkerBoard

/-- A status that an item took at some time. -/
structure Transition where
  status : Text
  time : Moment
  user : Text
deriving DecidableEq

/-- A marker comment. -/
structure Item where
  /-- The number of the item in its scan. -/
  id : Int
  keyword : Text
  title : Text
  description : Text
  /-- The path of the file below the project. -/
  file : Text
  /-- The line of the marker, from 1. -/
  line : Int
  /-- The identifier of the item's column. -/
  status : Text
  priority : Priority
  isDone : Bool
  doneAt : Option Moment
  doneBy : Option Text
  history : List Transition
  createdAt : Moment
  updatedAt : Moment
  currentUser : Text
deriving DecidableEq

namespace Item

/-- Keyword and title together. -/
def fullTitle (i : Item) : Text := i.keyword ++ ": ".toList ++ i.title

/-- The item in a column; nothing happens if it is there already. -/
def setStatus (i : Item) (status user : Text) (time : Moment) : Item :=
  if i.status = status then i
  else { i with
    status, updatedAt := time, currentUser := user, history := i.history ++ [⟨status, time, user⟩] }

/-- The item with its done mark derived from its status. Time and user of the last transition to
the done status are taken; without such a transition they stay as they are. -/
def markDone (i : Item) (doneStatus : Text) : Item :=
  if i.status = doneStatus then
    match i.history.reverse.find? (·.status = doneStatus) with
    | some t => { i with isDone := true, doneAt := some t.time, doneBy := some t.user }
    | none => { i with isDone := true }
  else { i with isDone := false, doneAt := none, doneBy := none }

/-- The done mark for a board that may have no column for it. -/
def markDoneIn (i : Item) : Option Text → Item
  | some doneStatus => i.markDone doneStatus
  | none => i

/-- The text that tells an item apart across scans. -/
def fingerprintText (file : Text) (line : Int) (keyword title : Text) : Text :=
  Text.join [':'] [file, Text.ofInt line, keyword, title]

end Item

/-! ## JSON -/

namespace Transition

/-- Reads a transition. -/
def read : Reader Transition := .record fun fields =>
  mk <$> Reader.required "status" .text fields
    <*> Reader.required "timestamp" .moment fields
    <*> Reader.required "user" .text fields

/-- A transition as JSON. -/
def toJson (t : Transition) : Json := .record [
  ("status", .str t.status), ("timestamp", .moment t.time), ("user", .str t.user)]

end Transition

namespace Item

/-- Reads an item. -/
def read : Reader Item := .record fun fields =>
  mk <$> Reader.required "id" .integer fields
    <*> Reader.required "type" .text fields
    <*> Reader.optional "title" .text [] fields
    <*> Reader.optional "description" .text [] fields
    <*> Reader.required "file" .text fields
    <*> Reader.required "line" (.integerFrom 1) fields
    <*> Reader.required "status" .text fields
    <*> Reader.optional "priority" Priority.read .low fields
    <*> Reader.optional "is_done" .boolean false fields
    <*> Reader.optional "done_at" (.nullable .moment) none fields
    <*> Reader.optional "done_by" (.nullable .text) none fields
    <*> Reader.optional "history" (.list Transition.read) [] fields
    <*> Reader.required "created_at" .moment fields
    <*> Reader.required "updated_at" .moment fields
    <*> Reader.optional "current_user" .text [] fields

/-- The fields of an item as JSON. -/
def toFields (i : Item) : List (String × Json) := [
  ("id", .int i.id), ("type", .str i.keyword), ("title", .str i.title),
  ("description", .str i.description), ("file", .str i.file), ("line", .int i.line),
  ("status", .str i.status), ("priority", .str i.priority.name), ("is_done", .bool i.isDone),
  ("done_at", Json.nullable .moment i.doneAt), ("done_by", Json.nullable .str i.doneBy),
  ("history", .arr (i.history.map Transition.toJson)), ("created_at", .moment i.createdAt),
  ("updated_at", .moment i.updatedAt), ("current_user", .str i.currentUser)]

/-- An item as JSON. -/
def toJson (i : Item) : Json := .record i.toFields

end Item
end MarkerBoard

import MarkerBoard.Item
import MarkerBoard.Digest.Sha256

/-!
# Tasks

A task is what the history keeps of an item. Its hash depends on where the item is and what its
marker says, not on its status, so a moved item stays the same task.
-/
namespace MarkerBoard

/-- An item as the history keeps it. -/
structure Task where
  id : Int
  keyword : Text
  title : Text
  file : Text
  line : Int
  status : Text
  priority : Priority
  isDone : Bool
  doneAt : Option Moment
  doneBy : Option Text
  hash : Text
deriving DecidableEq

namespace Task

/-- The first 16 digits of the hash of file, line, keyword and title. -/
def hashOf (file : Text) (line : Int) (keyword title : Text) : Text :=
  (Sha256.hex (Utf8.encode (Item.fingerprintText file line keyword title))).take 16

/-- The task of an item. -/
def ofItem (i : Item) : Task where
  id := i.id
  keyword := i.keyword
  title := i.title
  file := i.file
  line := i.line
  status := i.status
  priority := i.priority
  isDone := i.isDone
  doneAt := i.doneAt
  doneBy := i.doneBy
  hash := hashOf i.file i.line i.keyword i.title

/-- Reads a task. -/
def read : Reader Task := .record fun fields =>
  mk <$> Reader.required "id" .integer fields
    <*> Reader.required "type" .text fields
    <*> Reader.optional "title" .text [] fields
    <*> Reader.required "file" .text fields
    <*> Reader.required "line" .integer fields
    <*> Reader.required "status" .text fields
    <*> Reader.optional "priority" Priority.read .low fields
    <*> Reader.optional "is_done" .boolean false fields
    <*> Reader.optional "done_at" (.nullable .moment) none fields
    <*> Reader.optional "done_by" (.nullable .text) none fields
    <*> Reader.required "hash" .text fields

/-- A task as JSON. -/
def toJson (t : Task) : Json := .record [
  ("id", .int t.id), ("type", .str t.keyword), ("title", .str t.title), ("file", .str t.file),
  ("line", .int t.line), ("status", .str t.status), ("priority", .str t.priority.name),
  ("is_done", .bool t.isDone), ("done_at", Json.nullable .moment t.doneAt),
  ("done_by", Json.nullable .str t.doneBy), ("hash", .str t.hash)]

end Task
end MarkerBoard

import MarkerBoard.History.Store
import MarkerBoard.Move
import MarkerBoard.Scan

/-!
# Sessions

A session keeps the items of the latest scan. When an item is moved, the lines of the items below
it in its file are kept in step with the file. Items of earlier scans can still be moved, if their
marker is where it was.
-/
namespace MarkerBoard

/-- The world together with the items that scans have found. -/
structure Session where
  world : World
  /-- The items of the latest scan. -/
  items : List Item
  /-- The items of the scans before, the earliest scan first. -/
  retired : List (List Item)

/-- An item of some scan, the first scan having the number 1. -/
structure Handle where
  scan : Nat
  id : Int
deriving DecidableEq

/-- What may fail and may change a session; what has changed before a failure stays changed. -/
abbrev Activity := ExceptT Failure (StateM Session)

namespace Session

/-- Nothing has been scanned yet. -/
def start (w : World) : Session := ⟨w, [], []⟩

/-- The number of the latest scan. -/
def scanNumber (s : Session) : Nat := s.retired.length

/-- The handle of an item of the latest scan. -/
def handle (s : Session) (i : Item) : Handle := ⟨s.scanNumber, i.id⟩

/-- The items of a scan. -/
def itemsOf (s : Session) (scan : Nat) : List Item :=
  if scan = s.scanNumber then s.items else s.retired.getD scan []

/-- The item with a handle. -/
def item? (s : Session) (h : Handle) : Option Item := (s.itemsOf h.scan).find? (·.id = h.id)

/-- New items take the place of those of the latest scan. -/
def replaceItems (s : Session) (items : List Item) : Session :=
  { s with items, retired := s.retired ++ [s.items] }

/-- The items with a new value for one of them. -/
def putItem (i : Item) (items : List Item) : List Item :=
  items.map fun j => if j.id = i.id then i else j

/-- The item after the file of another one has grown above it. -/
def shift (moved : Moved) (i : Item) : Item :=
  if i.file = moved.item.file ∧ moved.item.line < i.line then
    { i with line := i.line + moved.growth }
  else i

/-- The session after an item of some scan has been moved. -/
def afterMove (s : Session) (scan : Nat) (moved : Moved) : Session :=
  let s := if scan = s.scanNumber then { s with items := putItem moved.item s.items }
    else { s with retired := s.retired.modify scan (putItem moved.item) }
  { s with items := s.items.map (shift moved) }

/-! ## Queries -/

/-- The items in a column. -/
def withStatus (status : Text) (items : List Item) : List Item := items.filter (·.status = status)

/-- The items with a keyword. -/
def withKeyword (keyword : Text) (items : List Item) : List Item :=
  items.filter (·.keyword = keyword)

/-- The items with a priority. -/
def withPriority (p : Priority) (items : List Item) : List Item := items.filter (·.priority = p)

/-- The items under their keywords. -/
def byKeyword (items : List Item) : Keyed (List Item) :=
  items.foldl (fun m i => Keyed.push i.keyword i m) []

end Session

/-- Statuses with new names. -/
abbrev Renaming := Keyed Text

namespace Renaming

/-- The columns of two boards, matched by their positions, where the identifiers differ. -/
def between (old new : Settings) : Renaming :=
  let pairs := (old.columns.map Column.id).zip (new.columns.map Column.id)
  Keyed.ofList (pairs.filter fun e => e.1 ≠ e.2)

/-- The new name of a status. -/
def apply (r : Renaming) (status : Text) : Text := (Keyed.get? status r).getD status

/-- A transition with its status renamed. -/
def transition (r : Renaming) (t : Transition) : Transition := { t with status := r.apply t.status }

/-- An item with its status and its history renamed, and its done mark derived anew. -/
def item (r : Renaming) (doneId : Option Text) (i : Item) : Item :=
  let renamed := { i with status := r.apply i.status, history := i.history.map r.transition }
  renamed.markDoneIn doneId

end Renaming

namespace Activity

/-- An action on the world of a session. -/
def act {α : Type} (a : Action α) : Activity α := fun s =>
  let (result, world) := a s.world
  (result, { s with world })

/-- Scans the project. -/
def scan (p : Project) : Activity (List Item) := do
  let items ← act (.scan p)
  modify (·.replaceItems items)
  pure items

/-- Scans the project and records the result, if there is a history. -/
def scanAndRecord (p : Project) (history : Option HistoryStore) : Activity (List Item) := do
  let items ← scan p
  match history with
  | none => pure items
  | some store =>
    let settings ← act p.settings
    let _ ← act (store.save items settings)
    pure items

/-- The item of the latest scan with a number. -/
def item (id : Int) : Activity Item := do
  match (← get).items.find? (·.id = id) with
  | some i => pure i
  | none => throw (.unknownItem id)

/-- The items of the latest scan with a priority given by its name. -/
def itemsWithPriority (name : Text) : Activity (List Item) := do
  match Priority.ofName? name with
  | some p => pure (Session.withPriority p (← get).items)
  | none => throw (.unknownPriority name)

/-- Moves an item of some scan to a column. -/
def moveItem (p : Project) (scan : Nat) (i : Item) (columnId : Text) : Activity Item := do
  let settings ← act p.settings
  let moved ← act (.move p.root settings i columnId)
  modify (·.afterMove scan moved)
  pure moved.item

/-- Moves the item of the latest scan with a number to a column. -/
def update (p : Project) (id : Int) (columnId : Text) : Activity Item := do
  let i ← item id
  moveItem p (← get).scanNumber i columnId

/-- Moves the item with a handle to a column. -/
def updateAt (p : Project) (h : Handle) (columnId : Text) : Activity Item := do
  match (← get).item? h with
  | some i => moveItem p h.scan i columnId
  | none => throw (.unknownItem h.id)

/-- Carries the items over to a board whose columns have other identifiers, and records them, if
there is a history. -/
def carryOver (old new : Settings) (history : Option HistoryStore) : Activity Renaming := do
  let names := Renaming.between old new
  if names.isEmpty then pure names
  else
    modify fun s => { s with items := s.items.map (names.item new.doneId?) }
    match history with
    | none => pure names
    | some store =>
      let _ ← act (store.save (← get).items (some new))
      pure names

end Activity
end MarkerBoard

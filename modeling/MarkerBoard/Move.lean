import MarkerBoard.Block.Edit
import MarkerBoard.Project

/-!
# Moving items

An item is moved to a column by editing its comment in its file. The file changes only if all
goes well, and the item with it. What can go wrong is checked in this order: the column, the
file, the line, and writing the file.
-/
namespace MarkerBoard

namespace Column

/-- The note that a move to the column leaves in a comment. A column that markers enter needs
none. -/
def noteFor (c : Column) (opener : Text) (time : Moment) (user : Text) : Text :=
  if c.isKeywordEntered then [] else Comment.note opener c.name time user

end Column

namespace Item

/-- The item after a move to a column. -/
def moved (i : Item) (s : Settings) (c : Column) (time : Moment) (user : Text) : Item :=
  (i.setStatus c.id user time).markDoneIn s.doneId?

/-- The lines of the item's file after a move to a column. -/
def movedLines (i : Item) (s : Settings) (c : Column) (time : Moment) (user : Text)
    (lines : List Text) : Except LineFault (List Text) :=
  let opener := Comment.openerFor i.file
  (Grammar.ofSettings s).edit opener (c.noteFor opener time user) (some (i.keyword, i.title))
    i.line lines

end Item

/-- An item after a move, and by how many lines its file has grown. -/
structure Moved where
  item : Item
  growth : Int

namespace Action

/-- Moves an item to the column with an identifier. -/
def move (root : Path) (s : Settings) (i : Item) (columnId : Text) : Action Moved := do
  match s.column? columnId with
  | none => throw (.unknownColumn columnId)
  | some column =>
    let w ← get
    let user := w.git.currentUser w.env
    let path := root.join (Path.ofText i.file)
    match ← readText path with
    | .error f => throw (.unreadable path f)
    | .ok text =>
      let lines := Line.split text
      match i.movedLines s column w.localNow user lines with
      | .error f => throw (.staleLine path.toText i.line lines.length f)
      | .ok newLines =>
        match ← replace path true newLines.flatten with
        | .error f => throw (.unwritable path f)
        | .ok () =>
          pure ⟨i.moved s column w.localNow user, newLines.length - lines.length⟩

end Action
end MarkerBoard

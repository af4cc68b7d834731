import MarkerBoard.Grammar.Line
import MarkerBoard.Item
import MarkerBoard.Line

/-!
# Items in a file

An item is a marker line with the comment lines that follow it. The lines after the marker may
hold a description, a priority and notes, in any order; a line that is no comment, or the
next marker, ends the item.

Every marker line opens an item of its own, so the items of a file are found by looking at each
line together with the lines after it.
-/
namespace MarkerBoard

/-- What a line adds to the item above it. -/
inductive BlockLine
  | note (a : NoteLine)
  | priority (label : Text)
  | description (text : Text)
deriving DecidableEq

/-- What stays the same during a scan. -/
structure ScanContext where
  settings : Settings
  /-- Who new items are attributed to. -/
  user : Text
  /-- When the scan is made. -/
  now : Moment

namespace Grammar

/-- What a line adds to the item above it, unless the line ends the item. -/
def blockLine? (g : Grammar) (line : Text) : Option BlockLine :=
  let body := Line.body line
  if (g.marker? body).isSome then none
  else match g.note? body with
    | some a => some (.note a)
    | none => match g.priority? body with
      | some p => some (.priority p.word)
      | none => (description? body).map fun d => .description (Comment.withoutClose d.word)

/-- The lines at the start of a list that belong to an item above it. -/
def block (g : Grammar) : List Text → List BlockLine
  | [] => []
  | line :: lines =>
    match g.blockLine? line with
    | some b => b :: block g lines
    | none => []

end Grammar

namespace MarkerLine

/-- The title without its closing mark. -/
def titleText (m : MarkerLine) : Text := Comment.withoutClose (m.title.getD [])

end MarkerLine

namespace ScanContext

/-- The transition that a line records. A date that does not exist records nothing. -/
def transition? (ctx : ScanContext) : BlockLine → Option Transition
  | .note a => (Moment.ofMinuteText? a.stamp).map fun time =>
    ⟨ctx.settings.statusNamed a.name, time, Text.trim a.user⟩
  | _ => none

/-- The text that a line adds to the description; words that stand alone with a meaning of their
own are left out. -/
def descriptionText? (ctx : ScanContext) : BlockLine → Option Text
  | .description text =>
    if text.isEmpty || ctx.settings.reservedWords.contains text then none else some text
  | _ => none

/-- The priority that a line gives. -/
def linePriority? (ctx : ScanContext) : BlockLine → Option Priority
  | .priority label => ctx.settings.labels.resolve? label
  | _ => none

/-- The item of a marker in a given first column, with the lines that follow the marker. -/
def item (ctx : ScanContext) (first : Column) (file : Text) (id : Int) (line : Nat) (m : MarkerLine)
    (block : List BlockLine) : Item :=
  let recorded := block.filterMap ctx.transition?
  let entered : Transition := ⟨first.id, ctx.now, ctx.user⟩
  let item : Item := {
    id, line, file
    keyword := m.keyword
    title := m.titleText
    description := Text.join ['\n'] (block.filterMap ctx.descriptionText?)
    status := (recorded.getLast?.getD entered).status
    priority := (block.filterMap ctx.linePriority?).getLast?.getD .low
    isDone := false, doneAt := none, doneBy := none
    history := if recorded.isEmpty then [entered] else recorded
    createdAt := ctx.now, updatedAt := ctx.now, currentUser := ctx.user }
  item.markDoneIn ctx.settings.doneId?

/-- The items in lines that start at a line number, counted from an identifier on. -/
def itemsFrom (ctx : ScanContext) (g : Grammar) (first : Column) (file : Text) (id : Int)
    (number : Nat) :
    List Text → List Item
  | [] => []
  | line :: lines =>
    match g.marker? (Line.body line) with
    | none => itemsFrom ctx g first file id (number + 1) lines
    | some m =>
      ctx.item first file id number m (g.block lines) ::
        itemsFrom ctx g first file (id + 1) (number + 1) lines

/-- The items in a text, counted from an identifier on. A board without columns has none. -/
def items (ctx : ScanContext) (file : Text) (id : Int) (text : Text) : List Item :=
  match ctx.settings.firstColumn? with
  | none => []
  | some first => ctx.itemsFrom (.ofSettings ctx.settings) first file id 1 (Line.split text)

/-- The items in several files, counted through from an identifier on. -/
def itemsOfFiles (ctx : ScanContext) (id : Int) : List (Text × Text) → List (List Item)
  | [] => []
  | (file, text) :: files =>
    let found := ctx.items file id text
    found :: itemsOfFiles ctx (id + found.length) files

end ScanContext
end MarkerBoard

import MarkerBoard.Command.Console
import MarkerBoard.Command.Request

/-!
# Commands for items

Listing the items of a project, and moving an item to another column.
-/
namespace MarkerBoard

/-- Where a command works. -/
structure Workplace where
  /-- The directory of the project, resolved. -/
  root : Path
  /-- The directory of the board's own files. -/
  dir : Path

namespace Workplace

/-- The project of a workplace. -/
def project (w : Workplace) : Project := ⟨w.root, .directory w.dir⟩

/-- The history of a workplace. -/
def history (w : Workplace) : HistoryStore := ⟨w.dir, w.root⟩

end Workplace

namespace Settings

/-- The name of the column of a status; the status itself if there is no such column. -/
def nameOf (s : Settings) (status : Text) : Text :=
  (Keyed.get? status (Keyed.ofList (s.columns.map fun c => (c.id, c.name)))).getD status

end Settings

namespace Command

/-- A column of short cells at the left. -/
def fixedColumn (header : String) : Render.TableColumn := ⟨header.toList, false, false⟩

/-- A column of texts. -/
def textColumn (header : String) : Render.TableColumn := ⟨header.toList, false, true⟩

/-- A column of numbers. -/
def numberColumn (header : Text) : Render.TableColumn := ⟨header, true, true⟩

/-- How a priority looks in a table. -/
def priorityStyle : Priority → Text
  | .high => "bold red".toList
  | .medium => "yellow".toList
  | .low => "dim".toList

/-- Where something is. -/
def location (file : Text) (line : Int) : Text := file ++ ':' :: Text.ofInt line

/-- The row of an item. -/
def itemRow (s : Settings) (i : Item) : List Text :=
  [Text.ofInt i.id, i.keyword, Markup.escape i.title, s.nameOf i.status,
    Markup.bracketed (priorityStyle i.priority) ++ i.priority.name ++ "[/]".toList,
    location i.file i.line]

/-- The table of items. -/
def itemTable (s : Settings) (items : List Item) : Render.Table where
  title := some (Text.ofNat items.length ++ " item(s)".toList)
  columns := [⟨"ID".toList, true, false⟩, fixedColumn "Type", textColumn "Title",
    fixedColumn "Status", fixedColumn "Priority", fixedColumn "Location"]
  rows := items.map (itemRow s)

/-- The items that a request asks for. -/
def selected (r : ScanRequest) (items : List Item) : List Item :=
  items.filter fun i => r.status.all (· = i.status) && r.keyword.all (· = i.keyword)

/-- Lists the items of the project. -/
def scan (w : Workplace) (r : ScanRequest) : Command Unit := do
  let found ← attempt concernsHistory <|
    if r.save then Activity.scanAndRecord w.project (some w.history) else Activity.scan w.project
  let items := selected r found
  if r.json then write ((Json.arr (items.map Item.toJson)).print ++ ['\n'])
  else
    if items.isEmpty then say "[dim]No items found.[/dim]".toList
    else showTable (itemTable (← act w.project.settings) items)
    if r.save then say ("[green]Saved history to[/green] ".toList ++ w.history.file.toText)

/-- Scans the project and moves an item. -/
def scanAndMove (w : Workplace) (id : Int) (column : Text) (save : Bool) : Activity Item := do
  let _ ← Activity.scan w.project
  let item ← Activity.update w.project id column
  if save then
    let settings ← Activity.act w.project.settings
    let _ ← Activity.act (w.history.save (← get).items settings)
  pure item

/-- Moves an item of the project to a column. -/
def move (w : Workplace) (id : Int) (column : Text) (save : Bool) : Command Unit := do
  let item ← attempt (fun f => concernsItem f || concernsHistory f) (scanAndMove w id column save)
  say ("[green]Moved[/green] ".toList ++ Markup.escape item.fullTitle ++ " [dim](".toList ++
    location item.file item.line ++ ")[/dim] → [bold]".toList ++ column ++ "[/bold]".toList)

end Command
end MarkerBoard

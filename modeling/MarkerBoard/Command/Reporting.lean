import MarkerBoard.Command.Scanning
import MarkerBoard.History.Overview

/-!
# Commands for the history

What the history tells about a board, and dropping old snapshots from it.
-/
namespace MarkerBoard.Command

/-- Says that there is nothing to tell. -/
def sayNoHistory : Command Unit :=
  say "[yellow]No history recorded yet.[/yellow] Run [cyan]kodo scan --save[/cyan].".toList

/-- A task in a few words. -/
def describe (t : Task) : Text :=
  t.keyword ++ ": ".toList ++ Markup.escape t.title ++ " [dim](".toList ++ location t.file t.line ++
    ")[/dim]".toList

/-- Shows what has changed between the last two snapshots. -/
def changes (w : Workplace) : Command Unit := do
  let c ← actOnHistory w.history.changes
  say ("[green]+".toList ++ Text.ofNat c.added.length ++ " added[/green]  [red]-".toList ++
    Text.ofNat c.removed.length ++ " removed[/red]  [yellow]~".toList ++
    Text.ofNat c.moved.length ++ " moved[/yellow]".toList)
  c.added.forM fun t => say ("  [green]+[/green] ".toList ++ describe t)
  c.removed.forM fun t => say ("  [red]-[/red] ".toList ++ describe t)
  c.moved.forM fun m => say ("  [yellow]~[/yellow] ".toList ++ describe m.task ++ ' ' ::
    m.oldStatus ++ " → ".toList ++ m.newStatus)

/-- The columns of a board as columns of a table. -/
def boardColumns (b : Settings) : List Render.TableColumn :=
  b.columns.map fun c => numberColumn c.name

/-- The number under a key; zero if there is none. -/
def countText (m : Keyed Int) (key : Text) : Text := Text.ofInt ((Keyed.get? key m).getD 0)

/-- The table of a course. -/
def trendsTable (b : Settings) (t : Trends) : Render.Table where
  title := some "Item trends".toList
  columns := [fixedColumn "When", fixedColumn "Commit", textColumn "Branch"] ++ boardColumns b ++
    [numberColumn "Total".toList, numberColumn "Done %".toList]
  rows := (t.timeline.zip t.completion).map fun (e, p) =>
    [e.time.toMinuteText, e.commitShort, e.branch] ++
      b.columns.map (fun c => countText e.counts c.name) ++
      [Text.ofInt e.total, p.rate.toTenths]

/-- Shows the course of the board. -/
def trends (w : Workplace) : Command Unit := do
  let settings ← act w.project.settings
  let t ← act (w.history.trends settings)
  if t.timeline.isEmpty then sayNoHistory else showTable (trendsTable settings t)

/-- How a number of new tasks looks. -/
def growthStyle (n : Int) : Text :=
  (if 0 < n then "green" else if n < 0 then "red" else "dim").toList

/-- A number with its sign. -/
def signed (n : Int) : Text := if n < 0 then Text.ofInt n else '+' :: Text.ofInt n

/-- The table of a comparison. -/
def growthTable (growth : Keyed Int) : Render.Table where
  title := none
  columns := [textColumn "Column", numberColumn "Change".toList]
  rows := growth.map fun (name, n) =>
    [name, Markup.bracketed (growthStyle n) ++ signed n ++ "[/]".toList]

/-- Compares the last two snapshots. -/
def compare (w : Workplace) : Command Unit := do
  let settings ← act w.project.settings
  let c ← actOnHistory (w.history.compare settings)
  say ("[dim]".toList ++ c.previous.commitShort ++ " (".toList ++ c.previous.branch ++
    ")[/dim] → [bold]".toList ++ c.current.commitShort ++ "[/bold] (".toList ++
    c.current.branch ++ [')'])
  showTable (growthTable c.growth)

/-- Drops old snapshots. -/
def cleanup (w : Workplace) (days : Int) : Command Unit := do
  let dropped ← actOnHistory (w.history.cleanup days)
  say ("Removed ".toList ++ Text.ofNat dropped ++ " snapshot(s) older than ".toList ++
    Text.ofInt days ++ " day(s).".toList)

/-- The table of the columns. -/
def countsTable (b : Settings) (counts : Keyed Int) : Render.Table where
  title := none
  columns := [textColumn "Column", numberColumn "Items".toList]
  rows := counts.map fun (status, n) => [b.nameOf status, Text.ofInt n]

/-- Shows how far the board has got. -/
def stats (w : Workplace) : Command Unit := do
  let settings ← act w.project.settings
  match ← act w.history.load with
  | none => sayNoHistory
  | some h =>
    say ("[bold]".toList ++ h.projectPath ++ "[/bold]".toList)
    say ("[dim]Branch:[/dim] ".toList ++ h.branch ++ " [dim]@[/dim] ".toList ++ h.commitShort)
    say ("[dim]Last scan:[/dim] ".toList ++ h.lastScanAt.toMinuteText)
    say ("[dim]Snapshots:[/dim] ".toList ++ Text.ofNat h.snapshots.length)
    say ("[dim]Items:[/dim] ".toList ++ Text.ofInt h.total ++ "  [dim]Progress:[/dim] ".toList ++
      (h.progress settings).toTenths ++ ['%'])
    showTable (countsTable settings (h.statusCounts settings))

/-- The table of the files. -/
def filesTable (b : Settings) (groups : Keyed FileGroup) : Render.Table where
  title := some (Text.ofNat groups.length ++ " file(s)".toList)
  columns := [textColumn "File", numberColumn "Items".toList, numberColumn "High".toList] ++
    boardColumns b
  rows := (groups.mergeSort fun a b => Text.isUpTo a.1 b.1).map fun (file, g) =>
    [file, Text.ofNat g.tasks.length, Text.ofNat g.urgent] ++
      b.columns.map (fun c => countText g.counts c.id)

/-- Shows the files of the board. -/
def files (w : Workplace) : Command Unit := do
  let settings ← act w.project.settings
  match ← act (w.history.fileGroups settings) with
  | none => sayNoHistory
  | some groups => showTable (filesTable settings groups)

/-- Answers a question to the history. -/
def history (w : Workplace) : HistoryRequest → Command Unit
  | .changes => changes w
  | .trends => trends w
  | .compare => compare w
  | .cleanup days => cleanup w days
  | .stats => stats w
  | .files => files w

end MarkerBoard.Command

import MarkerBoard.Render.Table
import MarkerBoard.Session

/-!
# Commands and the terminal

A command works on a session and writes to a terminal that is 1000 cells wide. It may stop early:
because the command line was wrong, because it has told the user what went wrong, or because of a
failure that it does not expect.
-/
namespace MarkerBoard

/-- A session with what has been written so far. -/
structure Console where
  session : Session
  /-- What has been written for the user. -/
  out : Text
  /-- What has been written about errors. -/
  err : Text

/-- Why a command has stopped early. -/
inductive Stop
  /-- The command line asks for nothing. -/
  | usage
  /-- Nothing is left to do. -/
  | finished
  /-- The user knows what went wrong. -/
  | refused
  /-- Something unexpected has happened. -/
  | failed (f : Failure)

/-- What writes to the terminal and may stop early. -/
abbrev Command := ExceptT Stop (StateM Console)

namespace Command

/-- The width of the terminal. -/
def terminalWidth : Nat := 1000

/-- Lines, each ended. -/
def ended (lines : List Text) : Text := lines.flatMap (· ++ ['\n'])

/-- The lines that markup shows. -/
def linesOf (markup : Text) : Command (List Text) :=
  match Markup.shown markup with
  | .ok t => pure (Render.wrapped terminalWidth t)
  | .error inside => throw (.failed (.unmatchedTag inside))

/-- Writes a text as it is. -/
def write (t : Text) : Command Unit := modify fun c => { c with out := c.out ++ t }

/-- Writes markup for the user. -/
def say (markup : Text) : Command Unit := do write (ended (← linesOf markup))

/-- Writes markup about an error. -/
def complain (markup : Text) : Command Unit := do
  let lines ← linesOf markup
  modify fun c => { c with err := c.err ++ ended lines }

/-- Writes a table. -/
def showTable (t : Render.Table) : Command Unit :=
  match t.draw with
  | .ok lines => write (ended lines)
  | .error inside => throw (.failed (.unmatchedTag inside))

/-- What the user may do about a failure. -/
def hint? : Failure → Option Text
  | .unknownItem _ | .staleLine _ _ _ _ =>
    some "kodo scan  # IDs and line numbers change between scans".toList
  | .unknownColumn _ => some "check kanban_columns in .kodo/settings.json".toList
  | .tooFewSnapshots _ => some "commit, then run: kodo scan --save".toList
  | _ => none

/-- The failure concerns the history. -/
def concernsHistory : Failure → Bool
  | .historyUnwritable _ _ | .tooFewSnapshots _ => true
  | _ => false

/-- The failure concerns an item, its column or its file. -/
def concernsItem : Failure → Bool
  | .unknownColumn _ | .unknownItem _ | .unreadable _ _ | .staleLine _ _ _ _
  | .unwritable _ _ => true
  | _ => false

/-- Tells the user about a failure. -/
def tell (f : Failure) : Command Unit := do
  complain ("[red]Error:[/red] ".toList ++ Markup.escape f.message)
  match hint? f with
  | some hint => complain ("[cyan]→ Try:[/cyan] ".toList ++ hint)
  | none => pure ()

/-- Runs an activity in the session. Of its failures the expected ones are told to the user. -/
def attempt {α : Type} (isExpected : Failure → Bool) (a : Activity α) : Command α := do
  let c ← get
  let (result, session) := a c.session
  set { c with session }
  match result with
  | .ok x => pure x
  | .error f =>
    if isExpected f then
      tell f
      throw .refused
    else throw (.failed f)

/-- Runs an action in the world of the session, where no failure is expected. -/
def act {α : Type} (a : Action α) : Command α := attempt (fun _ => false) (Activity.act a)

/-- Runs an action that may find the history lacking. -/
def actOnHistory {α : Type} (a : Action α) : Command α := attempt concernsHistory (Activity.act a)

end Command
end MarkerBoard

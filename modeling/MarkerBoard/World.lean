import MarkerBoard.Disk.Change
import MarkerBoard.Failure
import MarkerBoard.Git

/-!
# The world

What the program sees and changes: the disk, the environment, the answers of git, two clocks and
a log. An action runs in a world; it may fail, and what it has changed until then stays changed.
-/
namespace MarkerBoard

/-- How serious a log entry is. -/
inductive Level
  | warning
  | error
deriving DecidableEq, Repr

/-- The name of a level. -/
def Level.name : Level → Text
  | .warning => "WARNING".toList
  | .error => "ERROR".toList

/-- What the device refuses, each with its message: the steps of writing a file, and directories. -/
structure Refusals where
  createTemporary : Option Text
  writeTemporary : Option Text
  /-- How many bytes have been written when writing is refused. -/
  written : Nat
  copyMode : Option Text
  rename : Option Text
  /-- Which directories cannot be made. -/
  makeDirectory : Path → Option Text

/-- The device refuses nothing. -/
def Refusals.none : Refusals := ⟨.none, .none, 0, .none, .none, fun _ => .none⟩

/-- All that is outside the program. -/
structure World where
  disk : Disk
  env : Keyed Text
  git : Git
  /-- The wall clock, without an offset. -/
  localNow : Moment
  /-- The clock of the history. -/
  utcNow : Moment
  refusals : Refusals
  /-- A name that no file has, for the next temporary file. -/
  freshName : Text
  log : List Level

/-- What may fail and may change the world. -/
abbrev Action := ExceptT Failure (StateM World)

/-- Changes of a disk one after the other; what has changed before a failure stays changed. -/
abbrev Disk.Changes := ExceptT Disk.Fault (StateM Disk)

namespace Action

/-- Writes a log entry. -/
def note (level : Level) : Action Unit := modify fun w => { w with log := w.log ++ [level] }

/-- A file as a text. -/
def readText (p : Path) : Action (Except FileFault Text) := do
  match (← get).disk.bytes p with
  | .error f => pure (.error (.disk f))
  | .ok bytes => match Utf8.decode bytes with
    | .error f => pure (.error (.encoding f))
    | .ok t => pure (.ok t)

/-- Refuses with a message, if there is one. -/
def refuse : Option Text → Except Disk.Fault Unit
  | none => .ok ()
  | some message => .error (.device message)

/-- A change of the disk. -/
def change (f : Disk → Except Disk.Fault Disk) : Disk.Changes Unit := do
  match f (← get) with
  | .ok disk => set disk
  | .error f => throw f

/-- A change of the disk that the device may refuse. -/
def unlessRefused (refusal : Option Text) (f : Disk → Except Disk.Fault Disk) :
    Disk.Changes Unit :=
  change fun disk => refuse refusal >>= fun _ => f disk

/-- Writes a temporary file. If the device refuses this, it has written the first bytes. -/
def fill (refusals : Refusals) (temporary : Path) (bytes : List UInt8) : Disk.Changes Unit :=
  match refusals.writeTemporary with
  | none => change (·.write temporary bytes)
  | some message => do
    change (·.write temporary (bytes.take refusals.written))
    throw (.device message)

/-- The steps from an empty temporary file to one that has taken the name of the target. -/
def fillAndRename (refusals : Refusals) (target temporary : Path) (keepMode : Bool)
    (bytes : List UInt8) : Disk.Changes Unit := do
  fill refusals temporary bytes
  if keepMode then unlessRefused refusals.copyMode (·.copyMode target temporary)
  unlessRefused refusals.rename (·.rename temporary target)

/-- Replaces a file by way of a temporary one. If a step fails after that has been made, it is
removed again, unless this fails too. -/
def replaceVia (refusals : Refusals) (target temporary : Path) (keepMode : Bool)
    (bytes : List UInt8) : Disk.Changes Unit := do
  unlessRefused refusals.createTemporary (·.makeTemporary temporary [])
  tryCatch (fillAndRename refusals target temporary keepMode bytes) fun f => do
    modify fun disk => (disk.unlink temporary).toOption.getD disk
    throw f

/-- Replaces a file by a text. -/
def replace (target : Path) (keepMode : Bool) (t : Text) : Action (Except Disk.Fault Unit) := do
  let w ← get
  let temporary := w.disk.temporaryPath target.parent w.freshName
  let (result, disk) := replaceVia w.refusals target temporary keepMode (Utf8.encode t) w.disk
  set { w with disk }
  pure result

end Action
end MarkerBoard

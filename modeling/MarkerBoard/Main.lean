import MarkerBoard.Command.Run
import MarkerBoard.Git.Repository
import Std.Time.Zoned

/-!
# The program

The command line is run on a copy of the files below the current directory and of those below the
directories that it names. What has changed is then written to the disk.
-/
namespace MarkerBoard.Program

/-- A place as an absolute path. -/
def pathOf (p : Place) : String := String.ofList (Path.toText ⟨['/'], p⟩)

/-- The place of an absolute path. -/
def placeOf (path : String) : Place := (Path.ofText path.toList).parts

/-- The directory of a place and all that is below it. Files that cannot be read are left out. -/
partial def readBelow (place : Place) : IO (List (Place × Node)) := do
  let mut entries := [(place, Node.dir)]
  for entry in ← (← IO.FS.realPath (pathOf place)).readDir do
    let below := place ++ [entry.fileName.toList]
    try
      match (← entry.path.symlinkMetadata).type with
      | .file =>
        let bytes ← IO.FS.readBinFile (pathOf below)
        entries := entries ++ [(below, .file bytes.toList Disk.newFileMode)]
      | .dir => entries := entries ++ (← readBelow below)
      | .symlink =>
        let target ← IO.FS.realPath (pathOf below)
        entries := entries ++ [(below, .link target.toString.toList)]
      | .other => pure ()
    catch _ => pure ()
  return entries

/-- The directories above a place. -/
def above (place : Place) : List (Place × Node) :=
  (List.range place.length).map fun n => (place.take n, .dir)

/-- The directories that a command line works on. -/
def directories (here : Path) (args : List Text) : List Path :=
  match Command.readArguments Command.globalRules false args with
  | none => [here]
  | some a =>
    let named := (["project", "config"].filterMap a.value?).map fun t => here.join (Path.ofText t)
    here :: named.filter fun p => !here.parts.isPrefixOf p.parts

/-- A copy of the disk as far as a command line works on it. -/
def readDisk (here : Path) (args : List Text) : IO Disk := do
  let mut entries := []
  for dir in directories here args do
    try
      let place := placeOf (← IO.FS.realPath (String.ofList dir.toText)).toString
      entries := entries ++ above place ++ (← readBelow place)
    catch _ => pure ()
  return ⟨here, entries⟩

/-- Writes the places of a disk that have changed. -/
def writeChanges (old new : Disk) : IO Unit := do
  for (place, node) in new.entries do
    if old.at? place ≠ some node then
      match old.at? place, node with
      | none, .dir => IO.FS.createDir (pathOf place)
      | some (.link _), .file bytes _ =>
        IO.FS.removeFile (pathOf place)
        IO.FS.writeBinFile (pathOf place) ⟨bytes.toArray⟩
      | _, .file bytes _ => IO.FS.writeBinFile (pathOf place) ⟨bytes.toArray⟩
      | _, _ => pure ()

/-- The variables that the program reads. -/
def variableNames : List String :=
  ["KODO_CONFIG_DIR", "KODO_EXCLUDE_DIRECTORIES", "KODO_EXCLUDE_FILES", "USER", "USERNAME", "HOME"]

/-- The environment, as far as the program reads it. -/
def readEnvironment : IO (Keyed Text) := do
  let values ← variableNames.mapM fun name => do
    return (← IO.getEnv name).map fun value => (name.toList, value.toList)
  return values.filterMap id

/-- The time of the wall clock. -/
def localNow : IO Moment := do
  let t ← Std.Time.PlainDateTime.now
  return (Moment.make? t.year.toInt.toNat t.month.toNat t.day.toNat t.hour.toNat t.minute.toNat
    t.second.toNat (t.nanosecond.toNat / 1000) none).getD .first

/-- The time of the history. -/
def utcNow : IO Moment := do
  let n := (← Std.Time.Timestamp.now).toNanosecondsSinceUnixEpoch.val
  return (Moment.ofUnix? (n / 1000000000) ((n % 1000000000).toNat / 1000)).getD .first

/-- The world as the program finds it. -/
def readWorld (here : Path) (args : List Text) : IO World := do
  let disk ← readDisk here args
  return {
    disk
    env := ← readEnvironment
    git := Git.ofProject disk here
    localNow := ← localNow
    utcNow := ← utcNow
    refusals := .none
    freshName := "items.kodo.tmp".toList
    log := [] }

/-- What is said about a command line that asks for nothing. -/
def usage : String := "Usage: kodo [--project DIR] [--config DIR] scan|move|history|version ...\n"

/-- Runs a command line and gives its exit code. -/
def run (args : List String) : IO UInt32 := do
  let args := args.map String.toList
  let here := Path.ofText (← IO.currentDir).toString.toList
  let world ← readWorld here args
  let (outcome, after) := Command.runIn args world
  writeChanges world.disk after.disk
  IO.print (String.ofList outcome.out)
  IO.eprint (String.ofList outcome.err)
  if outcome.exitCode = Command.usageCode then IO.eprint usage
  match outcome.failure with
  | some f => IO.eprintln (String.ofList f.message)
  | none => pure ()
  return outcome.exitCode.toUInt32

end MarkerBoard.Program

/-- The program. -/
def main (args : List String) : IO UInt32 := MarkerBoard.Program.run args

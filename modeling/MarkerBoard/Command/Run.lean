import MarkerBoard.Command.Reporting
import MarkerBoard.EnvFile.Load

/-!
# The command line

A command line is run in these steps: the options before the command are read, the project is
found, its variables are loaded, the rest of the command line is read, and the command is run.
-/
namespace MarkerBoard.Command

/-- The version of the program. -/
def version : String := "0.1.0"

/-- The workplace that the options before a command choose. -/
def workplace (d : Disk) (env : Keyed Text) (g : Globals) : Workplace :=
  let root := d.resolve ((g.project.map Path.ofText).getD d.here)
  { root
    dir := match g.config with
      | none => ConfigDir.of env d.here (some root)
      | some dir => root.join (Path.ofText dir) }

/-- Runs a request. -/
def perform (w : Workplace) : Request → Command Unit
  | .help => pure ()
  | .version => say ("kodo version ".toList ++ version.toList)
  | .scan r => scan w r
  | .move id column save => move w id column save
  | .history r => history w r

/-- The name of the command and its arguments, if there is such a command. -/
def command? : List Text → Option (Text × List Text)
  | name :: args => if names.any (·.toList = name) then some (name, args) else none
  | [] => none

/-- Runs a command whose name is known, after loading the variables of the project. -/
def runNamed (g : Globals) (name : Text) (args : List Text) : Command Unit := do
  let d := (← get).session.world.disk
  let root := (workplace d [] g).root
  let _ ← act (EnvFile.loadProject root)
  let w := workplace d (← get).session.world.env g
  match readRequest name args with
  | none => throw .usage
  | some r => perform w r

/-- Runs a command line. -/
def run (args : List Text) : Command Unit := do
  if args.isEmpty then throw .usage
  match readArguments globalRules false args with
  | none => throw .usage
  | some a =>
    let g : Globals := ⟨a.value? "project", a.value? "config"⟩
    let d := (← get).session.world.disk
    if a.has "help" then throw .finished
    else if g.project.any fun p => d.isFile (Path.ofText p) then throw .usage
    else match command? a.words with
      | none => throw .usage
      | some (name, args) => runNamed g name args

/-- How a command line has ended. -/
structure Outcome where
  exitCode : Nat
  out : Text
  err : Text
  /-- The failure that was not expected. -/
  failure : Option Failure

/-- The exit code of a command line that asks for nothing. -/
def usageCode : Nat := 2

/-- Runs a command line in a world. -/
def runIn (args : List Text) (w : World) : Outcome × World :=
  let (result, c) := run args ⟨.start w, [], []⟩
  let outcome (exitCode : Nat) (failure : Option Failure) : Outcome :=
    ⟨exitCode, c.out, c.err, failure⟩
  let outcome := match result with
    | .ok () | .error .finished => outcome 0 none
    | .error .usage => outcome usageCode none
    | .error .refused => outcome 1 none
    | .error (.failed f) => outcome 1 (some f)
  (outcome, c.session.world)

end MarkerBoard.Command

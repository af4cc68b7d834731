import MarkerBoard.EnvFile.Read
import MarkerBoard.World

/-!
# Loading variables

Variables from files only fill gaps: what the environment has already stays, so of several files
the first one that binds a name counts.
-/
namespace MarkerBoard.EnvFile

/-- The names of the files of a project that bind variables, in the order in which they count. -/
def fileNames : List Text := [".env".toList, ".env.local".toList]

/-- The variables that a file binds. A file that is not there, or is a directory, binds none. -/
def bound (p : Path) : Action (Keyed Text) := do
  let w ← get
  if w.disk.isFile p then
    match ← Action.readText p with
    | .ok text => pure (values w.env text)
    | .error (.encoding f) => throw (.undecodable f)
    | .error (.disk _) => pure []
  else pure []

/-- Sets a variable. -/
def setVariable (name value : Text) : Action Unit :=
  if '\x00' ∈ name ++ value then throw .nullInVariable
  else if '=' ∈ name then throw .badVariableName
  else modify fun w => { w with env := Keyed.put name value w.env }

/-- Sets those variables that are not set yet, and gives their names. -/
def fill : Keyed Text → Action (List Text)
  | [] => pure []
  | (name, value) :: rest => do
    if (Keyed.get? name (← get).env).isSome then fill rest
    else
      setVariable name value
      pure (name :: (← fill rest))

/-- Loads variables from files and gives the names of those that were set. -/
def load : List Path → Action (List Text)
  | [] => pure []
  | p :: ps => do
    let names ← fill (← bound p)
    pure (names ++ (← load ps))

/-- Loads the variables of a project. -/
def loadProject (project : Path) : Action (List Text) := load (fileNames.map project.child)

end MarkerBoard.EnvFile

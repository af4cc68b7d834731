import MarkerBoard.Board.Defaults
import MarkerBoard.Board.Merge
import MarkerBoard.Json.Reader
import MarkerBoard.World

/-!
# Loading settings

The defaults lie lowest; the settings file of the project lies over them; the exclusions of the
environment are added last. A settings file that cannot be used is passed over with a note in
the log, so that the board never disappears because of it.
-/
namespace MarkerBoard

namespace ConfigDir

/-- The variable that names another directory for the board's own files. -/
def variableName : Text := "KODO_CONFIG_DIR".toList

/-- The directory of the board's own files: named by the environment, and then relative to the
project, or a directory in the project. -/
def of (env : Keyed Text) (here : Path) (project : Option Path) : Path :=
  match Settings.valueOf? env variableName, project with
  | some dir, some project => project.join (Path.ofText dir)
  | some dir, none => Path.ofText dir
  | none, project => (project.getD here).child ".kodo".toList

/-- The path of the settings file. -/
def settingsFile (dir : Path) : Path := dir.child "settings.json".toList

end ConfigDir

namespace Settings

/-- The object in a file, if there is a file with one. -/
def loadObject (p : Path) : Action (Option (Keyed Json)) := do
  if (← get).disk.contains p then
    match ← Action.readText p with
    | .error (.encoding f) => throw (.undecodable f)
    | .error (.disk _) => Action.note .warning; pure none
    | .ok t => match Json.read? t with
      | some (.obj fields) => pure (some fields)
      | _ => Action.note .warning; pure none
  else pure none

/-- Adds the exclusions of the environment. -/
def overridden (fields : Keyed Json) : Action (Keyed Json) := do
  match override (← get).env fields with
  | .ok fields => pure fields
  | .error f => throw (.badExclusions f)

/-- Loads the settings from the directory of the board's own files. -/
def load (dir : Path) : Action Settings := do
  let fields := match ← loadObject (ConfigDir.settingsFile dir) with
    | some (f :: fs) => Json.overlayFields defaultFields (f :: fs)
    | _ => defaultFields
  match read (.obj (← overridden fields)) with
  | .valid s => pure s
  | .invalid _ => do
    Action.note .error
    match read (.obj (← overridden defaultFields)) with
    | .valid s => pure s
    | .invalid issues => throw (.badSettings issues)

end Settings
end MarkerBoard

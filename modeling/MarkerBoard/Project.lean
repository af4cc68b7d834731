import MarkerBoard.Board.Load

/-!
# Projects

A project is a directory whose files bear the markers, together with where the settings of its
board come from.
-/
namespace MarkerBoard

/-- Where the settings of a board come from. -/
inductive SettingsSource
  /-- A directory of the board's own files; they are loaded anew at each use. -/
  | directory (dir : Path)
  /-- Given settings. -/
  | fixed (s : Settings)

/-- A directory with files to scan. -/
structure Project where
  root : Path
  source : SettingsSource

namespace Project

/-- The settings of a project's board. -/
def settings (p : Project) : Action Settings :=
  match p.source with
  | .directory dir => Settings.load dir
  | .fixed s => pure s

end Project
end MarkerBoard

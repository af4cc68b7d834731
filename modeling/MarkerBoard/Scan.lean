import MarkerBoard.Block.Parse
import MarkerBoard.Project
import MarkerBoard.Walk

/-!
# Scanning a project

A scan reads every file of a project that is not excluded and collects the items, numbered from
1 in the order of the files. Files that cannot be read as text are passed over. Without marker
keywords there is nothing to look for.
-/
namespace MarkerBoard

namespace Disk

/-- A file as a text, if it is one. -/
def text? (d : Disk) (p : Path) : Option Text :=
  match d.bytes p with
  | .ok bytes => (Utf8.decode bytes).toOption
  | .error _ => none

/-- The texts of a project's files, each with its path below the project. -/
def sources (d : Disk) (root : Path) (excluded : List Text) (ignored : List Ignore.Pattern) :
    List (Text × Text) :=
  (Walk.files d root excluded (Ignore.ignores ignored)).filterMap fun names =>
    (d.text? ⟨root.anchor, root.parts ++ names⟩).map fun text => (Text.join ['/'] names, text)

end Disk

namespace ScanContext

/-- The items of a project on a disk. -/
def itemsOn (ctx : ScanContext) (d : Disk) (root : Path) (ignored : List Ignore.Pattern) :
    List Item :=
  (ctx.itemsOfFiles 1 (d.sources root ctx.settings.exclusions.directories ignored)).flatten

end ScanContext

namespace Action

/-- Scans a project. -/
def scan (p : Project) : Action (List Item) := do
  let settings ← p.settings
  let w ← get
  let ctx : ScanContext := ⟨settings, w.git.currentUser w.env, w.localNow⟩
  if (Grammar.ofSettings settings).isMute then
    note .warning
    pure []
  else
    match Ignore.patterns settings.exclusions.files with
    | .error pattern => throw (.badPattern pattern)
    | .ok ignored => pure (ctx.itemsOn w.disk p.root ignored)

end Action
end MarkerBoard

import MarkerBoard.Board.Record

/-!
# The default board

Three columns, the usual labels, and the directories and files that hold no comments worth
tracking.
-/
namespace MarkerBoard.Settings

/-- The columns of the default board. -/
def defaultColumns : List Json := [
  .record [("id", .str "todo".toList), ("name", .str "TODO".toList),
    ("color", .str "dark".toList), ("auto_assign_pattern", .str "TODO|FIXME".toList)],
  .record [("id", .str "in_progress".toList), ("name", .str "IN PROGRESS".toList),
    ("color", .str "blue".toList)],
  .record [("id", .str "done".toList), ("name", .str "DONE".toList),
    ("color", .str "green".toList)]]

/-- The directories that are left out by default. -/
def defaultDirectories : List String := [
  "node_modules", ".git", ".kodo", ".idea", ".vscode", ".cache", ".next", "dist", "build", "out",
  "public", "vendor", "target", "tmp", "logs", "coverage"]

/-- The files that are left out by default. -/
def defaultFiles : List String := [
  "*.min.js", "*.min.css", "*.bundle.js", "*.png", "*.jpg", "*.jpeg", "*.gif", "*.webp", "*.svg",
  "*.ico", "*.map", "*.lock", "package-lock.json", "yarn.lock", "pnpm-lock.yaml", ".gitignore",
  ".dockerignore", "README.md", "LICENSE", "*.env", "*.local", "*.log", "*.db"]

/-- The default settings as the fields of an object, the lowest layer of all settings. -/
def defaultFields : Keyed Json := [
  ("kanban_columns".toList, .arr defaultColumns),
  ("priority_patterns".toList, PriorityLabels.default.toJson),
  ("code_scan_settings".toList, .record [
    ("exclude_directories", .arr (defaultDirectories.map fun d => .str d.toList)),
    ("exclude_files", .arr (defaultFiles.map fun f => .str f.toList))])]

end MarkerBoard.Settings

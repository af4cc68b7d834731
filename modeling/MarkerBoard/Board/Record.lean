import MarkerBoard.Board.Settings

/-!
# Settings as JSON
-/
namespace MarkerBoard

namespace Column

/-- Reads a column. -/
def read : Reader Column := .record fun fields =>
  mk <$> Reader.required "id" .text fields
    <*> Reader.required "name" .text fields
    <*> Reader.optional "color" .text "gray".toList fields
    <*> Reader.optional "auto_assign_pattern" (.nullable .text) none fields

/-- A column as JSON. -/
def toJson (c : Column) : Json := .record [
  ("id", .str c.id), ("name", .str c.name), ("color", .str c.color),
  ("auto_assign_pattern", Json.nullable .str c.pattern)]

end Column

namespace PriorityLabels

/-- Every label is the name of its priority. -/
def default : PriorityLabels := ⟨Priority.low.name, Priority.medium.name, Priority.high.name⟩

/-- Reads the labels. -/
def read : Reader PriorityLabels := .record fun fields =>
  mk <$> Reader.optional "low" .text default.low fields
    <*> Reader.optional "medium" .text default.medium fields
    <*> Reader.optional "high" .text default.high fields

/-- The labels as JSON. -/
def toJson (p : PriorityLabels) : Json := .record [
  ("low", .str p.low), ("medium", .str p.medium), ("high", .str p.high)]

end PriorityLabels

namespace Exclusions

/-- Reads the exclusions. -/
def read : Reader Exclusions := .record fun fields =>
  mk <$> Reader.optional "exclude_directories" (.list .text) [] fields
    <*> Reader.optional "exclude_files" (.list .text) [] fields

/-- The exclusions as JSON. -/
def toJson (e : Exclusions) : Json := .record [
  ("exclude_directories", .arr (e.directories.map .str)),
  ("exclude_files", .arr (e.files.map .str))]

end Exclusions

namespace Settings

/-- The fields of settings that are the board's own. -/
def ownKeys : List String := ["kanban_columns", "priority_patterns", "code_scan_settings"]

/-- Reads settings. -/
def read : Reader Settings := .record fun fields =>
  mk <$> Reader.optional "kanban_columns" (.list Column.read) [] fields
    <*> Reader.optional "priority_patterns" PriorityLabels.read .default fields
    <*> Reader.optional "code_scan_settings" Exclusions.read ⟨[], []⟩ fields
    <*> pure (Reader.others ownKeys fields)

/-- The board's own part of settings as JSON fields. -/
def ownFields (s : Settings) : List (String × Json) := [
  ("kanban_columns", .arr (s.columns.map Column.toJson)),
  ("priority_patterns", s.labels.toJson),
  ("code_scan_settings", s.exclusions.toJson)]

end Settings
end MarkerBoard

import MarkerBoard.Board.Priority
import MarkerBoard.Text.Upper

/-!
# Boards

A board is a row of columns. A column with a pattern is entered by marker keywords: an item is
in it because of its marker. A column without one is reached through a note that bears
the column's name. The first column takes new items, the last one means done.
-/
namespace MarkerBoard

/-- A column of the board. -/
structure Column where
  /-- The identifier that items carry as their status. -/
  id : Text
  /-- The name that notes bear. -/
  name : Text
  color : Text
  /-- Marker keywords between bars. -/
  pattern : Option Text
deriving DecidableEq

namespace Column

/-- Items enter the column by their marker. -/
def isKeywordEntered (c : Column) : Bool := c.pattern.isSome

/-- The marker keywords that enter the column. -/
def keywords (c : Column) : List Text :=
  match c.pattern with
  | none => []
  | some pattern => ((Text.splitAtEach '|' pattern).map Text.trim).filter (· ≠ [])

end Column

/-- The labels of the priorities in a comment. -/
structure PriorityLabels where
  low : Text
  medium : Text
  high : Text
deriving DecidableEq

namespace PriorityLabels

/-- The labels in use; an empty label is switched off. -/
def inUse (p : PriorityLabels) : List Text := [p.low, p.medium, p.high].filter (· ≠ [])

/-- The priority of a label; of equal labels the lowest priority counts. -/
def resolve? (p : PriorityLabels) (label : Text) : Option Priority :=
  let label := Text.trim label
  if label = p.low then some .low
  else if label = p.medium then some .medium
  else if label = p.high then some .high
  else none

end PriorityLabels

/-- What a scan leaves out: directories by name, files by ignore patterns. -/
structure Exclusions where
  directories : List Text
  files : List Text
deriving DecidableEq

/-- The settings of a board. -/
structure Settings where
  columns : List Column
  labels : PriorityLabels
  exclusions : Exclusions
  /-- Fields of other programs, kept as they are. -/
  extra : Keyed Json
deriving DecidableEq

namespace Settings

/-- The column of new items. -/
def firstColumn? (s : Settings) : Option Column := s.columns.head?

/-- The column of finished items. -/
def doneColumn? (s : Settings) : Option Column := s.columns.getLast?

/-- The identifier of the column of finished items. -/
def doneId? (s : Settings) : Option Text := s.doneColumn?.map Column.id

/-- The first column with an identifier. -/
def column? (s : Settings) (id : Text) : Option Column := s.columns.find? (·.id = id)

/-- Names are compared without surrounding white space and regardless of case. -/
def nameKey (name : Text) : Text := Text.upper (Text.trim name)

/-- The first column with a name. -/
def columnNamed? (s : Settings) (name : Text) : Option Column :=
  s.columns.find? fun c => nameKey c.name = nameKey name

/-- A name in small letters, its words joined by underscores. -/
def snakeCase (name : Text) : Text :=
  let runs := (Text.splitWhere (!Text.isAsciiAlphanumeric ·) name).filter (· ≠ [])
  (Text.join ['_'] runs).map Text.asciiLower

/-- The status that a note with a name gives. -/
def statusNamed (s : Settings) (name : Text) : Text :=
  match s.columnNamed? name with
  | some c => c.id
  | none => snakeCase name

/-- The words that stand alone on a line without being a description. -/
def reservedWords (s : Settings) : List Text :=
  (s.labels.inUse ++ s.columns.map Column.name).map Text.trim

end Settings
end MarkerBoard

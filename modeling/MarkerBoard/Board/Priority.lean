import MarkerBoard.Checked.Read

/-!
# Priorities
-/
namespace MarkerBoard

/-- How urgent an item is. -/
inductive Priority
  | low
  | medium
  | high
deriving DecidableEq, Repr, Inhabited

namespace Priority

/-- The name under which a priority is stored and shown. -/
def name : Priority → Text
  | low => "LOW".toList
  | medium => "MEDIUM".toList
  | high => "HIGH".toList

/-- The priority of a name. -/
def ofName? (t : Text) : Option Priority := [low, medium, high].find? fun p => p.name = t

theorem ofName?_name (p : Priority) : ofName? p.name = some p := by
  cases p <;> decide

/-- Reads a priority by its name. -/
def read : Reader Priority
  | .str t => match ofName? t with
    | some p => .valid p
    | none => .wrong .notChoice
  | _ => .wrong .notChoice

end Priority
end MarkerBoard

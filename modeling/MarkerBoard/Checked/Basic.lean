import MarkerBoard.Json.Basic

/-!
# Checked values

A value read from JSON is either there, or there is a list of issues that says what is wrong and
where. Parts of a record are checked independently, so all issues are found, in the order of the
parts.
-/
namespace MarkerBoard

/-- What is wrong with a value. -/
inductive Defect
  | missing
  | notText
  | notInteger
  | notBoolean
  | notMoment
  | notChoice
  | notList
  | notDictionary
  | notRecord
  | tooSmall
deriving DecidableEq, Repr

/-- One step into a value. -/
inductive Step
  | key (name : Text)
  | index (n : Nat)
deriving DecidableEq, Repr

/-- A defect and where it is. -/
structure Issue where
  place : List Step
  defect : Defect
deriving DecidableEq, Repr

/-- A value, or what is wrong with it. -/
inductive Checked (α : Type)
  | valid (value : α)
  | invalid (issues : List Issue)

namespace Checked
variable {α β : Type}

/-- Applies a function to the value. -/
def map (f : α → β) : Checked α → Checked β
  | valid a => valid (f a)
  | invalid issues => invalid issues

/-- Applies a checked function to a checked value; the issues of both are kept. -/
def apply : Checked (α → β) → Checked α → Checked β
  | valid f, x => x.map f
  | invalid issues, valid _ => invalid issues
  | invalid issues, invalid more => invalid (issues ++ more)

instance : Applicative Checked where
  pure := valid
  map := map
  seq f x := apply f (x ())

/-- One issue at the place itself. -/
def wrong (defect : Defect) : Checked α := invalid [⟨[], defect⟩]

/-- The value of a part, its issues placed under a step. -/
def under (step : Step) : Checked α → Checked α
  | valid a => valid a
  | invalid issues => invalid (issues.map fun i => ⟨step :: i.place, i.defect⟩)

/-- The value, if there is one. -/
def toOption : Checked α → Option α
  | valid a => some a
  | invalid _ => none

end Checked
end MarkerBoard

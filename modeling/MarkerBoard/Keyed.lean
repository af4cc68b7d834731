import MarkerBoard.Text.Basic

/-!
# Keyed lists

A keyed list maps texts to values and remembers the order in which the keys first came. A key
that is set again keeps its place.
-/
namespace MarkerBoard

/-- Values under text keys, in the order of their keys' first appearance. -/
abbrev Keyed (α : Type) := List (Text × α)

namespace Keyed
variable {α β : Type}

/-- The value under a key. -/
def get? (key : Text) : Keyed α → Option α
  | [] => none
  | (k, v) :: m => if k = key then some v else get? key m

/-- Sets the value under a key: in place if the key is there, else at the end. -/
def put (key : Text) (value : α) : Keyed α → Keyed α
  | [] => [(key, value)]
  | (k, v) :: m => if k = key then (k, value) :: m else (k, v) :: put key value m

/-- Without a key. -/
def erase (key : Text) (m : Keyed α) : Keyed α := m.filter fun e => e.1 ≠ key

/-- The keys in order. -/
def keys (m : Keyed α) : List Text := m.map Prod.fst

/-- Applies a function to every value. -/
def mapValues (f : α → β) (m : Keyed α) : Keyed β := m.map fun e => (e.1, f e.2)

/-- The keyed list of a sequence of settings, the later ones winning. -/
def ofList (pairs : List (Text × α)) : Keyed α := pairs.foldl (fun m e => put e.1 e.2 m) []

/-- Adds an element to the group under a key. -/
def push (key : Text) (value : α) (m : Keyed (List α)) : Keyed (List α) :=
  put key ((get? key m).getD [] ++ [value]) m

/-- Counts one more under a key. -/
def bump (key : Text) (m : Keyed Int) : Keyed Int := put key ((get? key m).getD 0 + 1) m

/-- How often each key occurs, in the order of first occurrences. -/
def tally (ks : List Text) : Keyed Int := ks.foldl (fun m k => bump k m) []

@[simp] theorem get?_put (key k : Text) (v : α) (m : Keyed α) :
    get? k (put key v m) = if key = k then some v else get? k m := by
  induction m with
  | nil => by_cases h : key = k <;> simp [put, get?, h]
  | cons e m ih =>
    obtain ⟨k', v'⟩ := e
    by_cases h1 : k' = key
    · subst h1
      by_cases h2 : k' = k <;> simp [put, get?, h2]
    · by_cases h2 : k' = k
      · subst h2
        simp [put, get?, h1, Ne.symm h1]
      · simp [put, get?, h1, h2, ih]

end Keyed
end MarkerBoard

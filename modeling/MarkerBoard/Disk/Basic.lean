import MarkerBoard.Path
import MarkerBoard.Text.Quoted

/-!
# The disk

A disk is a list of entries, each at a place: the names that lead from the root to it. A
directory's contents are the entries whose places extend its own.

* `Disk.at?_put` — what is where after an entry has been put.
-/
namespace MarkerBoard

/-- Where an entry is: names from the root on. -/
abbrev Place := List Text

/-- An entry of the disk. -/
inductive Node
  | file (bytes : List UInt8) (mode : Nat)
  | dir
  /-- A symbolic link with the path it points to. -/
  | link (target : Text)
deriving DecidableEq, Repr

/-- The entries of a disk, seen from a working directory. -/
structure Disk where
  /-- The working directory, an absolute path. -/
  here : Path
  entries : List (Place × Node)

namespace Disk

/-- The entry at a place; the root is always a directory. -/
def at? (d : Disk) (p : Place) : Option Node :=
  if p = [] then some .dir else (d.entries.find? (·.1 = p)).map Prod.snd

/-- Puts an entry at a place, in the stead of what is there. -/
def putIn (p : Place) (n : Node) : List (Place × Node) → List (Place × Node)
  | [] => [(p, n)]
  | e :: es => if e.1 = p then (p, n) :: es else e :: putIn p n es

/-- The disk with an entry put at a place. -/
def put (d : Disk) (p : Place) (n : Node) : Disk := { d with entries := putIn p n d.entries }

/-- The disk without the entry at a place. -/
def drop (d : Disk) (p : Place) : Disk := { d with entries := d.entries.filter (·.1 ≠ p) }

/-- The disk without a place and all that is below it. -/
def dropTree (d : Disk) (p : Place) : Disk :=
  { d with entries := d.entries.filter fun e => !p.isPrefixOf e.1 }

/-- The entries below a place, with the names that lead from it to them. -/
def below (d : Disk) (p : Place) : List (Place × Node) :=
  (d.entries.filter fun e => p.isPrefixOf e.1 && e.1 ≠ p).map fun e => (e.1.drop p.length, e.2)

theorem find?_putIn (p q : Place) (n : Node) (es : List (Place × Node)) :
    (putIn p n es).find? (·.1 = q) = if p = q then some (p, n) else es.find? (·.1 = q) := by
  induction es with
  | nil => by_cases h : p = q <;> simp [putIn, h]
  | cons e es ih =>
    by_cases he : e.1 = p
    · by_cases h : p = q
      · simp [putIn, he, h]
      · simp [putIn, he, h]
    · by_cases h : p = q
      · subst h; simp [putIn, he, ih]
      · by_cases hq : e.1 = q
        · subst hq; simp [putIn, he, h]
        · simp [putIn, he, hq, ih, h]

theorem at?_put (d : Disk) (p q : Place) (n : Node) (h : q ≠ []) :
    (d.put p n).at? q = if p = q then some n else d.at? q := by
  by_cases hp : p = q <;> simp [at?, put, h, find?_putIn, hp]

/-! ## Faults -/

/-- Why a path could not be used. -/
inductive PathFault
  | missing
  | alreadyThere
  | notDirectory
  | isDirectory
  | tooManyLinks
deriving DecidableEq, Repr

/-- Why an operation on the disk failed. -/
inductive Fault
  | onPath (kind : PathFault) (path : Path)
  /-- A renaming failed. -/
  | onPaths (kind : PathFault) (old new : Path)
  /-- The disk itself failed, with a message of its own. -/
  | device (message : Text)
deriving DecidableEq, Repr

/-- The wording of a path fault, with its number. -/
def PathFault.message : PathFault → Text
  | .missing => "[Errno 2] No such file or directory".toList
  | .alreadyThere => "[Errno 17] File exists".toList
  | .notDirectory => "[Errno 20] Not a directory".toList
  | .isDirectory => "[Errno 21] Is a directory".toList
  | .tooManyLinks => "[Errno 40] Too many levels of symbolic links".toList

/-- The wording of a fault. -/
def Fault.message : Fault → Text
  | .onPath kind path => kind.message ++ ": ".toList ++ Text.quoted path.toText
  | .onPaths kind old new => kind.message ++ ": ".toList ++ Text.quoted old.toText ++
      " -> ".toList ++ Text.quoted new.toText
  | .device message => message

end Disk
end MarkerBoard

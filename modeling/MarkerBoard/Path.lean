import MarkerBoard.Text.Basic

/-!
# Paths

A path is an anchor (none, one slash or two) and its parts. Empty parts and parts that are a
single dot never occur; two dots stay, because what they mean depends on the disk.
-/
namespace MarkerBoard

/-- A path in parts. -/
structure Path where
  /-- Empty for a relative path; one slash, or exactly two. -/
  anchor : Text
  parts : List Text
deriving DecidableEq, Repr

namespace Path

/-- The parts that a text between slashes contributes. -/
def partsOf (t : Text) : List Text :=
  (Text.splitAtEach '/' t).filter fun part => part ≠ [] ∧ part ≠ ['.']

/-- Reads a path. -/
def ofText (t : Text) : Path :=
  let slashes := (t.takeWhile (· == '/')).length
  ⟨if slashes = 0 then [] else if slashes = 2 then ['/', '/'] else ['/'], partsOf t⟩

/-- Writes a path; the empty relative path is a single dot. -/
def toText (p : Path) : Text :=
  match p.anchor, p.parts with
  | [], [] => ['.']
  | anchor, parts => anchor ++ Text.join ['/'] parts

/-- The path does not depend on where one stands. -/
def isAbsolute (p : Path) : Bool := !p.anchor.isEmpty

/-- The path `q` seen from `p`. -/
def join (p q : Path) : Path := if q.isAbsolute then q else ⟨p.anchor, p.parts ++ q.parts⟩

/-- The path of an entry of the directory `p`. -/
def child (p : Path) (name : Text) : Path := p.join (ofText name)

/-- The path without its last part. -/
def parent (p : Path) : Path := ⟨p.anchor, p.parts.dropLast⟩

/-- The last part. -/
def name (p : Path) : Text := p.parts.getLastD []

/-- The last part from its last dot on, unless that dot is its first or last character. -/
def suffix (p : Path) : Text :=
  let tail := (p.name.reverse.takeWhile (· ≠ '.')).reverse
  let stem := p.name.take (p.name.length - tail.length - 1)
  if tail.length < p.name.length ∧ tail ≠ [] ∧ stem ≠ [] then '.' :: tail else []

/-- A part put after others; two dots take the part before them away. -/
def pushPart (parts : List Text) (part : Text) : List Text :=
  if part = ['.', '.'] then parts.dropLast else parts ++ [part]

/-- An absolute path without double dots, read off the text alone. -/
def normal (p : Path) : Path := ⟨p.anchor, p.parts.foldl pushPart []⟩

end Path
end MarkerBoard

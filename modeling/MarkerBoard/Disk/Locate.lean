import MarkerBoard.Disk.Basic

/-!
# Finding a path on the disk

A path leads to a place by way of directories and symbolic links. Links are followed a limited
number of times, so that a circle of links is noticed.
-/
namespace MarkerBoard.Disk

/-- How many links may be followed for one path. -/
def linkLimit : Nat := 40

/-- Follows names from a place on. The last name need not exist, and if it is a link it is only
followed on request. -/
def follow (d : Disk) (lastToo : Bool) (links : Nat) (at_ : Place) :
    List Text → Except PathFault Place
  | [] => .ok at_
  | name :: rest =>
    if name = ['.', '.'] then follow d lastToo links at_.dropLast rest
    else match d.at? (at_ ++ [name]) with
      | none => if rest = [] then .ok (at_ ++ [name]) else .error .missing
      | some (.file _ _) => if rest = [] then .ok (at_ ++ [name]) else .error .notDirectory
      | some .dir => follow d lastToo links (at_ ++ [name]) rest
      | some (.link target) =>
        if rest = [] ∧ lastToo = false then .ok (at_ ++ [name])
        else match links with
          | 0 => .error .tooManyLinks
          | links + 1 =>
            let p := Path.ofText target
            follow d lastToo links (if p.isAbsolute then [] else at_) (p.parts ++ rest)
termination_by names => (links, names.length)

/-- The absolute path of a path. -/
def absolute (d : Disk) (p : Path) : Path := d.here.join p

/-- The place of a path, following links. -/
def locate (d : Disk) (p : Path) : Except Fault Place :=
  (d.follow true linkLimit [] (d.absolute p).parts).mapError (.onPath · p)

/-- The place of a path, where its last name stands for itself even if it is a link. -/
def locateEntry (d : Disk) (p : Path) : Except Fault Place :=
  (d.follow false linkLimit [] (d.absolute p).parts).mapError (.onPath · p)

/-- What a path leads to, if it leads anywhere. -/
def node? (d : Disk) (p : Path) : Option Node :=
  match d.locate p with
  | .ok place => d.at? place
  | .error _ => none

/-- The path leads to something. -/
def contains (d : Disk) (p : Path) : Bool := (d.node? p).isSome

/-- The path leads to a directory. -/
def isDir (d : Disk) (p : Path) : Bool := d.node? p = some .dir

/-- The path leads to a file. -/
def isFile (d : Disk) (p : Path) : Bool :=
  match d.node? p with
  | some (.file _ _) => true
  | _ => false

/-- The bytes of a file. -/
def bytes (d : Disk) (p : Path) : Except Fault (List UInt8) := do
  let place ← d.locate p
  match d.at? place with
  | some (.file bytes _) => .ok bytes
  | some .dir => .error (.onPath .isDirectory p)
  | _ => .error (.onPath .missing p)

/-- The names that a path resolves to when all its links are followed. Names that do not exist
are kept, and so is a link once too many have been followed. -/
def resolveFrom (d : Disk) (links : Nat) (at_ : Place) : List Text → Place
  | [] => at_
  | name :: rest =>
    if name = ['.', '.'] then resolveFrom d links at_.dropLast rest
    else match links, d.at? (at_ ++ [name]) with
      | links + 1, some (.link target) =>
        let p := Path.ofText target
        resolveFrom d links (if p.isAbsolute then [] else at_) (p.parts ++ rest)
      | links, _ => resolveFrom d links (at_ ++ [name]) rest
termination_by names => (links, names.length)

/-- The absolute path without links that a path resolves to. -/
def resolve (d : Disk) (p : Path) : Path :=
  ⟨['/'], d.resolveFrom linkLimit [] (d.absolute p).parts⟩

end MarkerBoard.Disk

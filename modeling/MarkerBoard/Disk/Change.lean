import MarkerBoard.Disk.Locate

/-!
# Changing the disk

Every change either succeeds, with the disk as it is afterwards, or fails and leaves the disk as
it was. Only when several directories are made, one above the other, those that have been made stay
if the next one cannot be. Files are replaced in several steps: a temporary file is made next to the
old one, the new contents go into it, and it then takes the name of the old one.
-/
namespace MarkerBoard.Disk

/-- The permission bits of a new file. -/
def newFileMode : Nat := 0o644

/-- The permission bits of a temporary file. -/
def privateMode : Nat := 0o600

/-- Writes a file, which keeps its permission bits if it is there already. -/
def write (d : Disk) (p : Path) (bytes : List UInt8) : Except Fault Disk := do
  let place ← d.locate p
  match d.at? place with
  | some .dir => .error (.onPath .isDirectory p)
  | some (.file _ mode) => .ok (d.put place (.file bytes mode))
  | _ => .ok (d.put place (.file bytes newFileMode))

/-- Makes a directory. -/
def makeDir (d : Disk) (p : Path) : Except Fault Disk := do
  let place ← d.locateEntry p
  match d.at? place with
  | none => .ok (d.put place .dir)
  | some _ => .error (.onPath .alreadyThere p)

/-- The fault, unless the path is a directory already. -/
def unlessDir (d : Disk) (p : Path) (f : Fault) : Except Fault Unit :=
  if d.isDir p then .ok () else .error f

/-- Makes a directory, unless it is there. The device may refuse this. -/
def makeDirHere (refused : Path → Option Text) (d : Disk) (p : Path) : Except Fault Unit × Disk :=
  match d.makeDir p with
  | .error f => (d.unlessDir p f, d)
  | .ok made => match refused p with
    | none => (.ok (), made)
    | some message => (.error (.device message), d)

/-- Makes a directory and those above it, unless they are there. If one of them cannot be made,
those above it that have been made stay. -/
def makePath (refused : Path → Option Text) (d : Disk) (p : Path) : Except Fault Unit × Disk :=
  match d.makeDir p with
  | .error (.onPath .missing q) =>
    if _h : p.parts = [] then (.error (.onPath .missing q), d)
    else match makePath refused d p.parent with
      | (.ok (), d) => d.makeDirHere refused p
      | (.error f, d) => (.error f, d)
  | _ => d.makeDirHere refused p
termination_by p.parts.length
decreasing_by
  have := List.length_pos_iff.2 ‹_›
  simp only [Path.parent, List.length_dropLast]
  omega

/-- The disk with a directory and those above it, if they are there or can be made. -/
def makeDirs (d : Disk) (p : Path) : Except Fault Disk :=
  match d.makePath (fun _ => none) p with
  | (.ok (), d) => .ok d
  | (.error f, _) => .error f

/-- The path of the temporary file with a name in a directory. -/
def temporaryPath (d : Disk) (dir : Path) (name : Text) : Path :=
  ((d.absolute dir).normal).child name

/-- Makes a temporary file with the given contents. The name has to be a fresh one. -/
def makeTemporary (d : Disk) (temporary : Path) (bytes : List UInt8) : Except Fault Disk := do
  let place ← d.locateEntry temporary
  match d.at? place with
  | none => .ok (d.put place (.file bytes privateMode))
  | some _ => .error (.onPath .alreadyThere temporary)

/-- Gives a file the permission bits of another one. -/
def copyMode (d : Disk) (source target : Path) : Except Fault Disk := do
  let giver ← d.locate source
  let taker ← d.locate target
  match d.at? giver, d.at? taker with
  | some (.file _ mode), some (.file bytes _) => .ok (d.put taker (.file bytes mode))
  | none, _ => .error (.onPath .missing source)
  | _, none => .error (.onPath .missing target)
  | _, _ => .ok d

/-- Removes a file or a link. -/
def unlink (d : Disk) (p : Path) : Except Fault Disk := do
  let place ← d.locateEntry p
  match d.at? place with
  | none => .error (.onPath .missing p)
  | some .dir => .error (.onPath .isDirectory p)
  | some _ => .ok (d.drop place)

/-- Gives a file another name, in the stead of what has this name. A link that has the name is
replaced itself. -/
def rename (d : Disk) (old new : Path) : Except Fault Disk := do
  let source ← (d.locateEntry old).mapError fun _ => .onPaths .missing old new
  let target ← match d.follow false linkLimit [] (d.absolute new).parts with
    | .ok place => .ok place
    | .error kind => .error (.onPaths kind old new)
  match d.at? source, d.at? target with
  | some _, some .dir => .error (.onPaths .isDirectory old new)
  | some n, _ => .ok ((d.drop source).put target n)
  | none, _ => .error (.onPaths .missing old new)

end MarkerBoard.Disk

import MarkerBoard.Disk.Locate
import MarkerBoard.Ignore.Match

/-!
# The files of a tree

A scan looks at all files below a directory, except in directories with excluded names and
except those that ignore patterns exclude. Links to files count as files; links to directories
are neither files nor entered. The files of a directory come before its subdirectories, each
group in the order of code points.
-/
namespace MarkerBoard.Walk

/-- The order of a walk, on the names that lead to two files: a file of a directory comes before
anything in its subdirectories. -/
def before : (a b : List Text) → Bool
  | [], _ => true
  | _, [] => false
  | [x], [y] => Text.isUpTo x y
  | [_], _ :: _ :: _ => true
  | _ :: _ :: _, [_] => false
  | x :: xs, y :: ys => if x = y then before xs ys else Text.isUpTo x y

/-- An entry counts as a file: it is one, or a link that does not lead to a directory. -/
def isFile (d : Disk) (root : Place) (names : List Text) : Node → Bool
  | .file _ _ => true
  | .dir => false
  | .link _ => !d.isDir ⟨['/'], root ++ names⟩

/-- The names lead through no excluded directory. -/
def isOpen (excluded : List Text) (names : List Text) : Bool :=
  names.dropLast.all fun name => !excluded.contains name

/-- The files below a directory, as the names that lead to them. -/
def files (d : Disk) (root : Path) (excluded : List Text) (ignored : Text → Bool) :
    List (List Text) :=
  match d.locate root with
  | .error _ => []
  | .ok place =>
    if d.at? place = some .dir then
      let found := (d.below place).filter fun e =>
        isFile d place e.1 e.2 && isOpen excluded e.1 && !ignored (Text.join ['/'] e.1)
      (found.map Prod.fst).mergeSort before
    else []

end MarkerBoard.Walk

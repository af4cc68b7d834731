import MarkerBoard.Git
import MarkerBoard.Scan

/-!
# What the files of a repository tell

The current branch and commit stand in plain files of a repository. Messages do not, so without
running git there are none.
-/
namespace MarkerBoard.Git

/-- The names of the directory of a repository and of the files in it that matter here. -/
def directoryName : Text := ".git".toList

/-- The commit under a reference in a list of packed references. -/
def packed? (reference packed : Text) : Option Text :=
  (Text.splitAtEach '\n' packed).findSome? fun line =>
    match Text.words line with
    | [commit, name] => if name = reference then some commit else none
    | _ => none

/-- The current commit and its branch, read off the files of a repository. -/
def head? (file? : Text → Option Text) : Option (Text × Option Text) := do
  let head := Text.trim (← file? "HEAD".toList)
  match Text.after? "ref: ".toList head with
  | none => some ("HEAD".toList, some head)
  | some reference =>
    let commit := (file? reference).orElse fun _ =>
      (file? "packed-refs".toList).bind (packed? reference)
    some ((Text.after? "refs/heads/".toList reference).getD reference, commit)

/-- What the files of a repository tell. -/
def ofFiles (file? : Text → Option Text) : Git :=
  match head? file? with
  | none => silent
  | some (branch, commit) =>
    { silent with
      branch := some branch
      commit := commit
      commitShort := commit.map (List.take 7) }

/-- What the repository of a project tells. -/
def ofProject (d : Disk) (root : Path) : Git :=
  ofFiles fun name => d.text? ((root.child directoryName).join (Path.ofText name))

end MarkerBoard.Git

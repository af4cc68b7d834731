import MarkerBoard.Keyed

/-!
# What git says

Snapshots belong to commits, and transitions to users. Both are asked from git; where git cannot
answer there is a word for it.
-/
namespace MarkerBoard

/-- The raw answers of git; one is missing if the command fails. -/
structure Git where
  branch : Option Text
  commit : Option Text
  commitShort : Option Text
  /-- The message of a commit. -/
  messageOf : Text → Option Text
  userName : Option Text

namespace Git

/-- The word for what git does not know. -/
def unknown : Text := "unknown".toList

/-- Git is not there or knows nothing. -/
def silent : Git := ⟨none, none, none, fun _ => none, none⟩

/-- An answer without surrounding white space, unless it is blank. -/
def said? (answer : Option Text) : Option Text := (answer.map Text.trim).filter (· ≠ [])

/-- The current branch. -/
def currentBranch (g : Git) : Text := (said? g.branch).getD unknown

/-- The current commit. -/
def currentCommit (g : Git) : Text := (said? g.commit).getD unknown

/-- The current commit in its short form. -/
def currentCommitShort (g : Git) : Text := (said? g.commitShort).getD unknown

/-- The first line of a commit's message; empty if there is no such commit. -/
def subject (g : Git) (commit : Text) : Text :=
  if commit = [] ∨ commit = unknown then []
  else match said? (g.messageOf commit) with
    | none => []
    | some message => Text.trim (message.takeWhile (· ≠ '\n'))

/-- The name of the user in git's configuration. -/
def configuredUser? (g : Git) : Option Text := said? g.userName

/-- The variables that may name the user, the first one counting most. -/
def userVariables : List Text := ["USER".toList, "USERNAME".toList]

/-- The user to whom changes are attributed. -/
def currentUser (g : Git) (env : Keyed Text) : Text :=
  match g.configuredUser? with
  | some user => user
  | none =>
    (userVariables.findSome? fun name => (Keyed.get? name env).filter (· ≠ [])).getD unknown

end Git
end MarkerBoard

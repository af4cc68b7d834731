import MarkerBoard.Path
import MarkerBoard.Keyed
import MarkerBoard.Moment.Minute

/-!
# Comments

The kind of a file decides how its comments open. Comments of markup files also have a closing
mark, which never belongs to the text of a comment.
-/
namespace MarkerBoard.Comment

/-- Opens a comment in markup. -/
def markupOpener : Text := "<!--".toList

/-- Closes a comment in markup. -/
def markupClose : Text := "-->".toList

/-- The comment openers that a scan knows. -/
def openers : List Text := ["//".toList, "#".toList, "--".toList, markupOpener]

/-- A letter of a file suffix in lower case. The Kelvin sign is a capital letter k. -/
def lowerSuffixChar (c : Char) : Char := if c = '\u212a' then 'k' else Text.asciiLower c

/-- The suffixes of files whose comments open in an unusual way. -/
def suffixOpeners : Keyed Text :=
  [".py", ".sh", ".rb", ".yml", ".yaml"].map (fun s => (s.toList, "#".toList)) ++
    [(".sql".toList, "--".toList)] ++
    [".html", ".xml", ".vue"].map (fun s => (s.toList, markupOpener))

/-- The opener of the comments in a file. -/
def openerFor (file : Text) : Text :=
  (Keyed.get? ((Path.ofText file).suffix.map lowerSuffixChar) suffixOpeners).getD "//".toList

/-- The line is a comment of files with the given opener. A markup comment may open anywhere in
the line. -/
def isOwn (opener line : Text) : Bool :=
  let t := Text.trim line
  !t.isEmpty && (if opener = markupOpener then Text.hasPart opener t else Text.startsWith opener t)

/-- The text of a comment without its closing mark. -/
def withoutClose (t : Text) : Text :=
  let t := Text.trim t
  match Text.before? markupClose t with
  | some front => Text.trimEnd front
  | none => t

/-- The note that puts an item into the column of a name. -/
def note (opener name : Text) (time : Moment) (user : Text) : Text :=
  let words := name ++ ' ' :: time.toMinuteText ++ " by ".toList ++ user
  if opener = markupOpener then opener ++ ' ' :: words ++ ' ' :: markupClose
  else opener ++ ' ' :: words

end MarkerBoard.Comment

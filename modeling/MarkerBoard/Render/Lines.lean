import MarkerBoard.Render.Width

/-!
# Lines on a terminal

A line that is wider than the terminal is broken between words; a word that is wider goes over
several lines or is cut off. Tabs lead to the next tab stop.
-/
namespace MarkerBoard.Render

/-- The distance between tab stops. -/
def tabSize : Nat := 8

/-- The text with spaces for its tabs, when it starts in a given cell. -/
def expandTabs (cell : Nat) : Text → Text
  | [] => []
  | c :: t =>
    if c = '\t' then
      let fill := tabSize - 1 - cell % tabSize
      ' ' :: List.replicate fill ' ' ++ expandTabs (cell + 1 + fill) t
    else c :: expandTabs (cell + charWidth c) t

/-- The words of a text, each with the white space after it, and the first one also with the
white space before it. -/
def paddedWords (t : Text) : List Text :=
  let body := t.dropWhile Text.isBlank
  let tail := body.dropWhile (!Text.isBlank ·)
  let rest := tail.dropWhile Text.isBlank
  if _h : rest.length < t.length ∧ body ≠ [] then
    t.take (t.length - rest.length) :: paddedWords rest
  else []
termination_by t.length
decreasing_by exact _h.1

/-- A word in pieces that are as wide as possible, when a given number of cells is used. -/
def chop (limit used : Nat) (piece : Text) : Text → List Text
  | [] => [piece]
  | c :: t =>
    if limit < used + charWidth c then piece :: chop limit (charWidth c) [c] t
    else chop limit (used + charWidth c) (piece ++ [c]) t

/-- Fills lines with words, the first line being begun with a text of a given width. Words that
are wider than a line are chopped, or else left as they are. -/
def fillLines (limit : Nat) (chops : Bool) (line : Text) (used : Nat) : List Text → List Text
  | [] => [line]
  | w :: ws =>
    let needed := width (Text.trimEnd w)
    let before := if line = [] then [] else [line]
    if used + needed ≤ limit then fillLines limit chops (line ++ w) (used + width w) ws
    else if limit < needed && chops then
      let pieces := chop limit 0 [] w
      let last := pieces.getLastD []
      before ++ pieces.dropLast ++ fillLines limit chops last (width last) ws
    else before ++ fillLines limit chops w (width w) ws

/-- The text without the white space that lies beyond a width. -/
def trimBeyond (limit : Nat) (t : Text) : Text :=
  let blank := (t.reverse.takeWhile Text.isBlank).length
  t.take (t.length - min blank (width t - limit))

/-- As much of a text as fits into a width. -/
def takeCells (limit : Nat) : Text → Text
  | [] => []
  | c :: t => if limit < charWidth c then [] else c :: takeCells (limit - charWidth c) t

/-- A text cut to a width, with an ellipsis if something is missing. -/
def elide (limit : Nat) (t : Text) : Text :=
  if width t ≤ limit then t
  else
    let kept := takeCells (limit - 1) t
    kept ++ List.replicate (limit - 1 - width kept) ' ' ++ ['…']

/-- The lines of a text on a terminal of a given width. -/
def wrapped (limit : Nat) (t : Text) : List Text :=
  (Text.splitAtEach '\n' t).flatMap fun line =>
    (fillLines limit true [] 0 (paddedWords (expandTabs 0 line))).map (trimBeyond limit)

/-- The lines of a text in a column of a given width, where words are not chopped. -/
def cellLines (limit : Nat) (breaks : Bool) (t : Text) : List Text :=
  (Text.splitAtEach '\n' t).flatMap fun line =>
    let line := expandTabs 0 line
    let lines := if breaks then fillLines limit false [] 0 (paddedWords line) else [line]
    lines.map fun line => elide limit (trimBeyond limit line)

end MarkerBoard.Render

import MarkerBoard.Grammar.Line
import MarkerBoard.Block.Parse

/-!
# Moving an item in its file

An item is moved by editing its comment: the status lines go, and a note for the new column comes
last. Only the lines from the marker to the end of the comment are touched. The comment is the run
of lines in the file's own comment syntax up to the next marker, so it may be shorter than what a
scan gives to the item.
-/
namespace MarkerBoard

/-- Why an item cannot be found in its file. -/
inductive LineFault
  /-- The file has no such line. -/
  | outside
  /-- The line is no marker. -/
  | markerMoved
  /-- The line opens another item. -/
  | otherItem
deriving DecidableEq, Repr

namespace Grammar

/-- The line continues the comment of a marker above it. -/
def continues (g : Grammar) (opener line : Text) : Bool :=
  let body := Line.body line
  Comment.isOwn opener body && (g.marker? body).isNone

/-- The lines at the start of a list that continue the comment of a marker above it. -/
def ownLines (g : Grammar) (opener : Text) (lines : List Text) : List Text :=
  lines.takeWhile (g.continues opener)

/-- The line is a status line. -/
def isStatusLine (g : Grammar) (line : Text) : Bool := (g.statusLine? (Line.body line)).isSome

/-- The lines after an index. An index below -1 counts from the end, and then all lines follow
once more; no line is that far from the end of a shorter list. -/
def linesAfter? (lines : List Text) (start : Int) : Option (List Text) :=
  if -1 ≤ start then some (lines.drop (start + 1).toNat)
  else
    let back := (-start - 1).toNat
    if back ≤ lines.length then some (lines.drop (lines.length - back) ++ lines) else none

/-- The index of the last line of the comment that starts at an index. -/
def blockEnd? (g : Grammar) (opener : Text) (lines : List Text) (start : Int) : Option Int :=
  (linesAfter? lines start).map fun after => start + (g.ownLines opener after).length

end Grammar

namespace Line

/-- A line in two parts: its text, and its terminator or a given one if it has none. -/
def parts (terminator : Text) (line : Text) : Text × Text :=
  let e := ending line
  (body line, if e = [] then terminator else e)

/-- The lines of texts with terminators, the last of which is replaced. -/
def assemble (last : Text) : List (Text × Text) → List Text
  | [] => []
  | [(text, _)] => [text ++ last]
  | (text, terminator) :: lines => (text ++ terminator) :: assemble last lines

end Line

namespace Grammar

/-- A comment, given as its marker and the lines after it, with a new note, if there is
one. The comment keeps the terminator of its last line; new terminators are like the given
one. -/
def annotate (g : Grammar) (note terminator marker : Text) (own : List Text) : List Text :=
  let kept := marker :: own.filter fun line => !g.isStatusLine line
  let indent := (Line.body marker).takeWhile Text.isBlank
  let added := if note = [] then [] else [(indent ++ note, terminator)]
  Line.assemble (Line.ending (own.getLastD marker)) (kept.map (Line.parts terminator) ++ added)

/-- The lines of a file with the comment at a line number annotated anew. The marker has to be
there, and to have the expected keyword and title where they are known. -/
def edit (g : Grammar) (opener note : Text) (expected : Option (Text × Text))
    (number : Int) (lines : List Text) : Except LineFault (List Text) :=
  let start := (number - 1).toNat
  match lines.drop start with
  | [] => .error .outside
  | marker :: rest =>
    if number < 1 then .error .outside
    else match g.marker? (Line.body marker) with
      | none => .error .markerMoved
      | some m =>
        if expected.all (· = (m.keyword, m.titleText)) then
          let own := g.ownLines opener rest
          let terminator := match Line.ending marker with
            | [] => Line.firstEnding lines
            | e => e
          .ok (lines.take start ++ g.annotate note terminator marker own
            ++ rest.drop own.length)
        else .error .otherItem

end Grammar
end MarkerBoard

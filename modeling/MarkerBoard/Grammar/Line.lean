import MarkerBoard.Grammar.Basic
import MarkerBoard.Text.Digit
import MarkerBoard.Text.WordChar

/-!
# The lines of a comment

Five forms of comment lines. A marker opens an item; a note, a priority or a description
belongs to the item above it; a status line is a line that a move removes. Every comment line is
a description line, so the more special forms are asked for first.
-/
namespace MarkerBoard

/-- A line that opens an item. -/
structure MarkerLine where
  opener : Text
  keyword : Text
  /-- The text after the colon, missing if it is blank. -/
  title : Option Text
deriving DecidableEq

/-- A line that records a transition. -/
structure NoteLine where
  opener : Text
  name : Text
  stamp : Text
  user : Text
  /-- The closing mark with the white space before it, if there is one. -/
  close : Option Text
deriving DecidableEq

/-- A comment line with a word of the grammar, or with all its text. -/
structure WordLine where
  opener : Text
  word : Text
deriving DecidableEq

namespace Grammar

/-! ## Markers -/

/-- The title after a keyword and its colon. -/
def title? : Text → Option (Option Text)
  | ':' :: t =>
    let title := restOfLine (Text.trimStart t)
    some (if title = [] then none else some title)
  | _ => none

/-- The marker on a line. -/
def marker? (g : Grammar) (line : Text) : Option MarkerLine := do
  let (opener, t) ← opening? line
  let (keyword, title) ← word? title? g.keywords t
  pure ⟨opener, keyword, title⟩

/-! ## Descriptions -/

/-- The text of a comment line. -/
def description? (line : Text) : Option WordLine := do
  let (opener, t) ← opening? line
  pure ⟨opener, restOfLine (Text.trimStart t)⟩

/-! ## Priorities -/

/-- A word ends where no further character of a word follows. -/
def wordEnd? : Text → Option Unit
  | [] => some ()
  | c :: _ => if Text.isWordChar c then none else some ()

/-- The priority label on a line. -/
def priority? (g : Grammar) (line : Text) : Option WordLine := do
  let (opener, t) ← opening? line
  let (label, _) ← word? wordEnd? g.labels t
  pure ⟨opener, label⟩

/-! ## Status lines -/

/-- A status word ends at a colon, white space, a closing mark or the end. -/
def statusEnd? (t : Text) : Option Unit :=
  match t with
  | [] => some ()
  | c :: _ =>
    if c = ':' ∨ Text.isBlank c ∨ Text.startsWith Comment.markupClose t then some () else none

/-- The keyword or column name that makes a line a status line. -/
def statusLine? (g : Grammar) (line : Text) : Option WordLine := do
  let (opener, t) ← opening? line
  let (word, _) ← word? statusEnd? (g.keywords ++ g.names) t
  pure ⟨opener, word⟩

/-! ## Notes -/

/-- What follows at least one white space character and all others after it. -/
def blanks? : Text → Option Text
  | [] => none
  | c :: t => if Text.isBlank c then some (Text.trimStart t) else none

/-- A number of decimal digits of any script, and what follows them. -/
def digits? (count : Nat) (t : Text) : Option Text :=
  let ds := t.take count
  if ds.length = count ∧ ds.all Text.isDigit then some (t.drop count) else none

/-- A date and a time to the minute in digits, and what follows them. -/
def stampEnd? (t : Text) : Option Text := do
  let t ← Text.after? ['-'] (← digits? 4 t)
  let t ← Text.after? ['-'] (← digits? 2 t)
  let t ← blanks? (← digits? 2 t)
  let t ← Text.after? [':'] (← digits? 2 t)
  digits? 2 t

/-- What may follow the user: white space, with or without a closing mark before it. The closing
mark is given with the white space in front of it. -/
def closing? (t : Text) : Option (Option Text) :=
  match Text.after? Comment.markupClose (Text.trimStart t) with
  | some rest =>
    if rest.all Text.isBlank then some (some (t.take (t.length - rest.length))) else none
  | none => if t.all Text.isBlank then some none else none

/-- The shortest user, of at least one character on this line, after which the line can end. -/
def user? : Text → Option (Text × Option Text)
  | [] => none
  | c :: t =>
    if c = '\n' then none
    else match closing? t with
      | some close => some ([c], close)
      | none => (user? t).map fun (user, close) => (c :: user, close)

/-- Stamp, user and closing mark after the name of a note. -/
def transition? (t : Text) : Option (Text × Text × Option Text) := do
  let start ← blanks? t
  let t ← stampEnd? start
  let stamp := start.take (start.length - t.length)
  match ← Text.after? ['b', 'y'] (← blanks? t) with
  | [] => none
  | c :: t =>
    if Text.isBlank c then
      let (user, close) ← (afterBlanks t).findSome? user?
      pure (stamp, user, close)
    else none

/-- The note on a line. -/
def note? (g : Grammar) (line : Text) : Option NoteLine := do
  let (opener, t) ← opening? line
  let (name, stamp, user, close) ← word? transition? g.names t
  pure ⟨opener, name, stamp, user, close⟩

end Grammar
end MarkerBoard

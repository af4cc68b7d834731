import MarkerBoard.Text.Basic

/-!
# Lines

Only a line feed ends a line, and a line keeps its terminator, so that the lines of a text put
together again are the text. A carriage return at the end of a line belongs to its terminator,
one inside a line to its body.

* `Line.flatten_split` — nothing is lost by splitting.
* `Line.body_append_ending` — a line is its body followed by its terminator.
-/
namespace MarkerBoard.Line

/-- The lines of a text with their terminators. A final line feed adds no empty line. -/
def split : Text → List Text
  | [] => []
  | c :: t =>
    if c = '\n' then ['\n'] :: split t
    else match split t with
      | [] => [[c]]
      | line :: lines => (c :: line) :: lines

/-- A line feed or carriage return. -/
def isEol (c : Char) : Bool := c == '\n' || c == '\r'

/-- The line without its terminator. -/
def body (line : Text) : Text := Text.dropEnd isEol line

/-- The terminator of a line: its longest end of line feeds and carriage returns. -/
def ending (line : Text) : Text := (line.reverse.takeWhile isEol).reverse

/-- The terminator of the first line that has one, or a line feed. -/
def firstEnding (lines : List Text) : Text :=
  ((lines.map ending).find? (· ≠ [])).getD ['\n']

theorem flatten_split (t : Text) : (split t).flatten = t := by
  induction t with
  | nil => rfl
  | cons c t ih =>
    by_cases h : c = '\n'
    · simp [split, h, ih]
    · simp only [split, h, if_false]
      split
      · next e => simp [e] at ih; simp [← ih]
      · next e => simp [e] at ih; simp [← ih]

theorem body_append_ending (line : Text) : body line ++ ending line = line := by
  unfold body ending Text.dropEnd
  rw [← List.reverse_append, List.takeWhile_append_dropWhile, List.reverse_reverse]

end MarkerBoard.Line

import MarkerBoard.Board.Settings
import MarkerBoard.Comment

/-!
# The grammar of a board

What the lines of a comment mean depends on the words that the board's settings name: the
keywords that open an item, the names that notes bear, and the labels of priorities. Where
several words fit, the longest one counts.

* `Grammar.firstWord?_eq_some` — a word that is found fits the text, and what follows it is
  accepted.
-/
namespace MarkerBoard

/-- The words that give lines a meaning. -/
structure Grammar where
  /-- Keywords that open an item; never empty or blank at an end. -/
  keywords : List Text
  /-- Names of the columns that notes put an item into. -/
  names : List Text
  /-- Labels of priorities, never empty. -/
  labels : List Text
deriving DecidableEq

namespace Grammar

/-- The grammar of a board. -/
def ofSettings (s : Settings) : Grammar where
  keywords := s.columns.flatMap Column.keywords
  names := (s.columns.filter fun c => !c.isKeywordEntered).map Column.name
  labels := s.labels.inUse

/-- No line opens an item. -/
def isMute (g : Grammar) : Bool := g.keywords.isEmpty

/-- The opener of a line that is a comment from its first visible character on, and what follows
the opener. -/
def opening? (line : Text) : Option (Text × Text) :=
  Comment.openers.findSome? fun opener =>
    (Text.after? opener (Text.trimStart line)).map (opener, ·)

/-- A text up to the end of its first line. -/
def restOfLine (t : Text) : Text := t.takeWhile (· ≠ '\n')

/-- The first word at the start of a text whose continuation is accepted. -/
def firstWord? {α : Type} (accept : Text → Option α) (words : List Text) (t : Text) :
    Option (Text × α) :=
  words.findSome? fun w => ((Text.after? w t).bind accept).map (w, ·)

/-- The starts of a text after some of its leading white space, from all of it down to none. -/
def afterBlanks : Text → List Text
  | [] => [[]]
  | c :: t => if Text.isBlank c then afterBlanks t ++ [c :: t] else [c :: t]

/-- The longest word after some white space whose continuation is accepted. A word may begin
with white space itself; then less of it is left out. -/
def word? {α : Type} (accept : Text → Option α) (words : List Text) (t : Text) :
    Option (Text × α) :=
  (afterBlanks t).findSome? (firstWord? accept (Text.longestFirst words))

theorem firstWord?_eq_some {α : Type} {accept : Text → Option α} {words : List Text} {t w : Text}
    {a : α} (h : firstWord? accept words t = some (w, a)) :
    w ∈ words ∧ ∃ rest, t = w ++ rest ∧ accept rest = some a := by
  obtain ⟨v, hv, hw⟩ := List.exists_of_findSome?_eq_some h
  cases hr : Text.after? v t with
  | none => simp [hr] at hw
  | some rest =>
    simp only [hr, Option.bind_some, Option.map_eq_some_iff, Prod.mk.injEq] at hw
    obtain ⟨b, hb, rfl, rfl⟩ := hw
    exact ⟨hv, rest, Text.after?_eq_some_iff.1 hr, hb⟩

end Grammar
end MarkerBoard

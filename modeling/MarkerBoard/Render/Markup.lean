import MarkerBoard.Text.Basic

/-!
# Markup

Texts for the terminal may hold tags in brackets, such as `[red]` and `[/red]`, which say how the
text between them looks and are not shown themselves. A backslash before a tag makes it plain
text. Without colours only the tags matter that close nothing: they are faults.
-/
namespace MarkerBoard.Markup

/-- The character may come first in a tag. -/
def opensTag (c : Char) : Bool :=
  (decide ('a' ≤ c) && decide (c ≤ 'z')) || c == '#' || c == '/' || c == '@'

/-- A tag at the start of a text: its inside, and what follows it. -/
def tag? : Text → Option (Text × Text)
  | '[' :: c :: t =>
    let inside := t.takeWhile fun c => c != '[' && c != ']'
    match t.drop inside.length with
    | ']' :: rest => if opensTag c then some (c :: inside, rest) else none
    | _ => none
  | _ => none

/-- Backslashes and a tag at the start of a text: their number, the inside of the tag, and what
follows it. -/
def escapedTag? (t : Text) : Option (Nat × Text × Text) :=
  let count := (t.takeWhile (· == '\\')).length
  (tag? (t.drop count)).map fun (inside, rest) => (count, inside, rest)

/-- A tag with its brackets. -/
def bracketed (inside : Text) : Text := '[' :: inside ++ [']']

/-- A number of backslashes. -/
def backslashes (count : Nat) : Text := List.replicate count '\\'

/-- The text with a backslash more before each tag, those before it being doubled. -/
def escapeTags (t : Text) : Text :=
  match t with
  | [] => []
  | c :: t =>
    match escapedTag? (c :: t) with
    | some (count, inside, rest) =>
      backslashes (2 * count + 1) ++ bracketed inside ++
        if _h : rest.length < t.length + 1 then escapeTags rest else []
    | none => c :: escapeTags t
termination_by t.length

/-- Markup that shows a text as it is. A single backslash at the end is doubled, so that it does
not touch what follows. -/
def escape (t : Text) : Text :=
  let t := escapeTags t
  if Text.endsWith ['\\'] t && !Text.endsWith ['\\', '\\'] t then t ++ ['\\'] else t

/-- What a tag is called. -/
def nameOf (inside : Text) : Text := (Text.trim (inside.takeWhile (· ≠ '='))).map Text.asciiLower

/-- The open tags, the latest one first, after one has been closed: the latest one, or the latest
one of a name. -/
def close? (name : Text) (openTags : List Text) : Option (List Text) :=
  match name, openTags with
  | [], _ :: openTags => some openTags
  | [], [] => none
  | name, openTags => if name ∈ openTags then some (openTags.erase name) else none

/-- The open tags after another tag, unless it closes nothing. -/
def follow? (inside : Text) (openTags : List Text) : Option (List Text) :=
  match inside with
  | '/' :: name => close? (nameOf name) openTags
  | inside => some (nameOf inside :: openTags)

/-- The text of markup after some open tags, or the inside of a tag that closes nothing. -/
def textAfter (openTags : List Text) (t : Text) : Except Text Text :=
  match t with
  | [] => .ok []
  | c :: t =>
    match escapedTag? (c :: t) with
    | some (count, inside, rest) =>
      if _h : rest.length < t.length + 1 then
        let before := backslashes (count / 2)
        if count % 2 = 1 then (textAfter openTags rest).map (before ++ bracketed inside ++ ·)
        else match follow? inside openTags with
          | some openTags => (textAfter openTags rest).map (before ++ ·)
          | none => .error inside
      else .ok []
    | none =>
      match c, t with
      | '\\', '[' :: t => (textAfter openTags t).map ('[' :: ·)
      | c, t => (textAfter openTags t).map (c :: ·)
termination_by t.length

/-- The character is never shown. -/
def isDropped (c : Char) : Bool :=
  c == '\x07' || c == '\x08' || c == '\x0b' || c == '\x0c' || c == '\r'

/-- The text that markup shows, or the inside of a tag that closes nothing. -/
def shown (t : Text) : Except Text Text := (textAfter [] t).map (List.filter (!isDropped ·))

end MarkerBoard.Markup

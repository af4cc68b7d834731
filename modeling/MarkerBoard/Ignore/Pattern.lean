import MarkerBoard.Text.Basic

/-!
# Ignore patterns

A pattern names paths by their segments. A segment is a glob, or two stars, which stand for any
number of directories. A pattern without a slash, except at its end, is about a name at any
depth; a pattern with one is about a path from the root on. A pattern after an exclamation mark
takes back what earlier patterns have ignored.
-/
namespace MarkerBoard.Ignore

/-- A piece of a glob. -/
inductive Piece
  | char (c : Char)
  /-- Any characters but slashes. -/
  | anyRun
  /-- One character that is no slash. -/
  | anyOne
  /-- One character of a class given by closed ranges, or outside of it. -/
  | oneOf (negated : Bool) (ranges : List (Char × Char))
deriving DecidableEq, Repr

/-- A segment of a pattern. -/
inductive Segment
  /-- Any number of directories. -/
  | anyDepth
  /-- A whole name, whatever it is. -/
  | anyName
  | glob (pieces : List Piece)
deriving DecidableEq, Repr

/-- What a pattern says about paths. -/
structure Pattern where
  /-- The pattern takes back what earlier ones have ignored. -/
  negated : Bool
  /-- The pattern ends in a slash and is about directories. -/
  directory : Bool
  segments : List Segment
deriving DecidableEq, Repr

/-- What reading a line of an ignore list can give. -/
inductive Reading
  | pattern (p : Pattern)
  /-- A comment, a blank line, or a pattern that can match nothing. -/
  | noEffect
  | malformed
deriving DecidableEq, Repr

/-! ## Globs -/

/-- The ranges of a class, its members given one by one or as two ends with a hyphen between. -/
def rangesOf : Text → List (Char × Char)
  | a :: '-' :: b :: t => (a, b) :: rangesOf t
  | a :: t => (a, a) :: rangesOf t
  | [] => []

/-- The sign at the start of a class: whether it is negated, and what follows. -/
def classSign : Text → Bool × Text
  | '!' :: t => (true, t)
  | '^' :: t => (true, t)
  | t => (false, t)

/-- A closing bracket that comes first in a class is a member. -/
def classFirst : Text → Text × Text
  | ']' :: t => ([']'], t)
  | t => ([], t)

/-- A class after its opening bracket, and what follows it. -/
def classOf? (t : Text) : Option (Piece × Text) :=
  let signed := classSign t
  let opened := classFirst signed.2
  match opened.2.dropWhile (· ≠ ']') with
  | [] => none
  | _ :: rest =>
    let members := opened.1 ++ opened.2.takeWhile (· ≠ ']')
    some (.oneOf signed.1 (rangesOf members), rest)

theorem length_classSign_le (t : Text) : (classSign t).2.length ≤ t.length := by
  unfold classSign
  split <;> simp

theorem length_classFirst_le (t : Text) : (classFirst t).2.length ≤ t.length := by
  unfold classFirst
  split <;> simp

theorem length_classOf?_lt {t rest : Text} {piece : Piece}
    (h : classOf? t = some (piece, rest)) : rest.length < t.length := by
  have hs := length_classSign_le t
  have hf := length_classFirst_le (classSign t).2
  have hd := (List.dropWhile_sublist (· ≠ ']') (l := (classFirst (classSign t).2).2)).length_le
  simp only [classOf?] at h
  split at h
  · cases h
  · next e =>
    simp only [Option.some.injEq, Prod.mk.injEq] at h
    obtain ⟨_, rfl⟩ := h
    rw [e, List.length_cons] at hd
    omega

/-- What reading a glob can give. -/
inductive GlobReading
  | pieces (ps : List Piece)
  | noEffect
  | malformed

/-- A piece put before the rest of a glob. -/
def GlobReading.cons (p : Piece) : GlobReading → GlobReading
  | .pieces ps => .pieces (p :: ps)
  | r => r

/-- Reads a glob. A backslash protects the next character; at the end it is malformed. A class
without an end makes the glob match nothing. -/
def readGlob : Text → GlobReading
  | [] => .pieces []
  | '\\' :: [] => .malformed
  | '\\' :: c :: t => (readGlob t).cons (.char c)
  | '*' :: t => (readGlob t).cons .anyRun
  | '?' :: t => (readGlob t).cons .anyOne
  | '[' :: t =>
    match _h : classOf? t with
    | some (piece, rest) => (readGlob rest).cons piece
    | none => .noEffect
  | c :: t => (readGlob t).cons (.char c)
termination_by t => t.length
decreasing_by
  all_goals try have := length_classOf?_lt ‹_›
  all_goals simp_wf
  all_goals omega

/-! ## Patterns -/

/-- Two stars. -/
def twoStars : Text := ['*', '*']

/-- The segments of a pattern as texts: rooted, or at any depth; with two stars at the end for
what is in a directory; and without two stars twice in a row. -/
def normalSegments (segments : List Text) : List Text :=
  let rooted := match segments with
    | [] :: rest => rest
    | [a] => if a = twoStars then [a] else [twoStars, a]
    | [a, []] => if a = twoStars then [a, []] else [twoStars, a, []]
    | segments => segments
  let ended := match rooted.getLast? with
    | some [] => rooted.dropLast ++ [twoStars]
    | _ => rooted
  collapse ended
where
  /-- Two stars once where they stand several times in a row. -/
  collapse : List Text → List Text
    | a :: b :: rest =>
      if a = twoStars ∧ b = twoStars then collapse (b :: rest) else a :: collapse (b :: rest)
    | rest => rest

/-- What reading segments can give. -/
inductive SegmentsReading
  | segments (ss : List Segment)
  | noEffect
  | malformed

/-- A segment put before others. -/
def SegmentsReading.cons (s : Segment) : SegmentsReading → SegmentsReading
  | .segments ss => .segments (s :: ss)
  | r => r

/-- Reads segments; the first one that cannot be used decides. -/
def readSegments : List Text → SegmentsReading
  | [] => .segments []
  | t :: ts =>
    if t = twoStars then (readSegments ts).cons .anyDepth
    else if t = ['*'] then (readSegments ts).cons .anyName
    else match readGlob t with
      | .pieces ps => (readSegments ts).cons (.glob ps)
      | .noEffect => .noEffect
      | .malformed => .malformed

/-- Trailing white space does not count, unless a backslash protects it. -/
def withoutPadding (line : Text) : Text :=
  if Text.endsWith ['\\', ' '] line then line else Text.trimEnd line

/-- Reads a line of an ignore list. -/
def read (line : Text) : Reading :=
  let t := withoutPadding line
  if t = [] ∨ t.head? = some '#' ∨ t = ['/'] then .noEffect
  else
    let (negated, t) := match t with
      | '!' :: t => (true, t)
      | t => (false, t)
    let segments := Text.splitAtEach '/' t
    let directory := segments.getLast? = some []
    match normalSegments segments with
    | [] => .malformed
    | ts => match readSegments ts with
      | .segments ss => .pattern ⟨negated, directory, ss⟩
      | .noEffect => .noEffect
      | .malformed => .malformed

end MarkerBoard.Ignore

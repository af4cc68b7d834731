import MarkerBoard.Ignore.Pattern

/-!
# Matching paths against ignore patterns

A pattern is tried from the start of a path, and greedily: a star takes as much as it can, and
less only if the rest does not fit. A pattern may fit a path itself or a directory that the path
goes through; of a list, the last pattern that fits a path itself decides, and only if there is
none the last that fits a directory on the way.
-/
namespace MarkerBoard.Ignore

/-- How a pattern fits. -/
inductive Fit
  /-- The path itself. -/
  | path
  /-- A directory on the way. -/
  | onTheWay
deriving DecidableEq, Repr

/-- What the rest of a pattern makes of the rest of a path. -/
abbrev Rest := Text → Option Fit

/-- Characters up to the next slash, as many as possible, and then the rest. -/
def runThen (k : Rest) : Rest
  | [] => k []
  | c :: t => if c = '/' then k (c :: t) else (runThen k t).orElse fun _ => k (c :: t)

/-- A member of a class. -/
def inClass (ranges : List (Char × Char)) (c : Char) : Bool :=
  ranges.any fun r => r.1 ≤ c && c ≤ r.2

/-- One piece of a glob and then the rest. -/
def pieceThen (k : Rest) : Piece → Rest
  | .anyRun, t => runThen k t
  | .char c, d :: t => if c = d then k t else none
  | .anyOne, d :: t => if d = '/' then none else k t
  | .oneOf negated ranges, d :: t => if inClass ranges d != negated then k t else none
  | _, [] => none

/-- A glob and then the rest. -/
def globThen (ps : List Piece) (k : Rest) : Rest := ps.foldr (fun p k => pieceThen k p) k

/-- At least one character of a name and then the rest. -/
def nameThen (k : Rest) : Rest
  | [] => none
  | c :: t => if c = '/' then none else runThen k t

/-- Characters of one line, as many as possible but at least one, and then the rest. -/
def lineThen (k : Rest) : Rest
  | [] => none
  | c :: t => if c = '\n' then none else (lineThen k t).orElse fun _ => k t

/-- A slash and then the rest. -/
def slashThen (k : Rest) : Rest
  | '/' :: t => k t
  | _ => none

/-- After the last segment the path ends, or goes on inside a directory. -/
def endOfPath : Rest
  | [] | ['\n'] => some .path
  | '/' :: _ => some .onTheWay
  | _ => none

/-- A segment that stands for one name. -/
def oneName (s : Segment) (k : Rest) : Rest :=
  match s with
  | .glob ps => globThen ps k
  | _ => nameThen k

/-- Segments after others. -/
def segmentsThen (directory : Bool) : List Segment → Rest
  | [] => endOfPath
  | [.anyDepth] => slashThen fun _ => some (if directory then .onTheWay else .path)
  | .anyDepth :: ss => fun t =>
    (slashThen (lineThen (segmentsThen directory ss)) t).orElse fun _ => segmentsThen directory ss t
  | s :: ss => slashThen (oneName s (segmentsThen directory ss))

/-- All the segments of a pattern. -/
def patternThen (directory : Bool) : List Segment → Rest
  | [] => fun _ => none
  | [.anyDepth] => fun t =>
    if directory then (if t.contains '/' then some .onTheWay else none)
    else if t.any (· ≠ '\n') then some .path else none
  | [.anyDepth, .anyName] => fun t => if t.any (· ≠ '\n') then some .path else none
  | [.anyDepth, .anyName, .anyDepth] => fun t =>
    if t.contains '/' then some (if directory then .onTheWay else .path) else none
  | .anyDepth :: s :: ss => fun t =>
    let k := oneName s (segmentsThen directory ss)
    (lineThen (slashThen k) t).orElse fun _ => k t
  | s :: ss => oneName s (segmentsThen directory ss)

/-- How a pattern fits a path. -/
def Pattern.fit? (p : Pattern) (path : Text) : Option Fit :=
  patternThen p.directory p.segments path

/-- The last pattern that fits in a given way. -/
def lastFit? (ps : List Pattern) (path : Text) (fit : Fit) : Option Pattern :=
  ps.reverse.find? fun p => p.fit? path = some fit

/-- The patterns ignore a path. -/
def ignores (ps : List Pattern) (path : Text) : Bool :=
  match (lastFit? ps path .path).orElse fun _ => lastFit? ps path .onTheWay with
  | some p => !p.negated
  | none => false

/-- The patterns of a list of lines, or the line that is malformed. Blank lines do not count. -/
def patterns : List Text → Except Text (List Pattern)
  | [] => .ok []
  | line :: lines =>
    if (Text.trim line).isEmpty then patterns lines
    else match read line with
      | .malformed => .error line
      | .noEffect => patterns lines
      | .pattern p => (patterns lines).map (p :: ·)

end MarkerBoard.Ignore

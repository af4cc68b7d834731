import MarkerBoard.Moment.Basic

/-!
# ISO texts of moments

A moment is written as `2024-01-02T09:00:00`, followed by six digits of a second if there are
microseconds, and by `Z` or an offset such as `+05:30` if it has one. Reading is more generous:
the separator may also be a space, an underscore or a small letter, seconds may be missing, a
fraction of any length is cut off after six digits, and the colon of an offset may be missing.
-/
namespace MarkerBoard.Moment

/-! ## Writing -/

/-- An offset from UTC. -/
def offsetText (offset : Int) : Text :=
  if offset = 0 then ['Z']
  else (if offset < 0 then '-' else '+') :: Text.ofNatPadded 2 (offset.natAbs / 60) ++
    ':' :: Text.ofNatPadded 2 (offset.natAbs % 60)

/-- The ISO text of a moment. -/
def toIso (m : Moment) : Text :=
  Text.ofNatPadded 4 m.year ++ '-' :: Text.ofNatPadded 2 m.month ++
    '-' :: Text.ofNatPadded 2 m.day ++ 'T' :: Text.ofNatPadded 2 m.hour ++
    ':' :: Text.ofNatPadded 2 m.minute ++ ':' :: Text.ofNatPadded 2 m.second ++
    (if m.micro = 0 then [] else '.' :: Text.ofNatPadded 6 m.micro) ++
    match m.offset with
    | none => []
    | some offset => offsetText offset

/-! ## Reading -/

/-- Exactly `count` ASCII digits, and what follows them. -/
def digits? : (count : Nat) → Text → Option (Nat × Text)
  | count, t => do
    let ds ← (t.take count).mapM Text.asciiDigit?
    if ds.length = count then some (Text.natOfDigits ds, t.drop count) else none

/-- A date, and what follows it. -/
def date? (t : Text) : Option ((Nat × Nat × Nat) × Text) := do
  let (year, t) ← digits? 4 t
  let (month, t) ← digits? 2 (← Text.after? ['-'] t)
  let (day, t) ← digits? 2 (← Text.after? ['-'] t)
  pure ((year, month, day), t)

/-- The microseconds of a run of fraction digits, of which the first six count. -/
def microOf (run : Text) : Nat :=
  let ds := (run.filterMap Text.asciiDigit?).take 6
  Text.natOfDigits (ds ++ List.replicate (6 - ds.length) 0)

/-- Seconds and microseconds, if there are any, and what follows them. -/
def seconds? : Text → Option ((Nat × Nat) × Text)
  | ':' :: t => do
    let (second, t) ← digits? 2 t
    match t with
    | c :: fraction =>
      if c = '.' ∨ c = ',' then
        let run := fraction.takeWhile Text.isAsciiDigit
        if run = [] then none
        else pure ((second, microOf run), fraction.dropWhile Text.isAsciiDigit)
      else pure ((second, 0), c :: fraction)
    | [] => pure ((second, 0), [])
  | t => some ((0, 0), t)

/-- An offset in minutes after its sign, at the end of the text. -/
def offsetMinutes? (t : Text) : Option Int := do
  let (hours, t) ← digits? 2 t
  let (minutes, t) ← digits? 2 ((Text.after? [':'] t).getD t)
  if t = [] ∧ minutes < 60 then pure (60 * hours + minutes) else none

/-- The offset that ends a text, or nothing at all. -/
def offset? : Text → Option (Option Int)
  | [] => some none
  | ['Z'] | ['z'] => some (some 0)
  | '+' :: t => (offsetMinutes? t).map some
  | '-' :: t | '\u2212' :: t => (offsetMinutes? t).map fun minutes => some (-minutes)
  | _ => none

/-- The separators between date and time. -/
def isSeparator (c : Char) : Bool := c == 'T' || c == 't' || c == ' ' || c == '_'

/-- Reads a date with a time, or a date alone, which stands for its midnight. -/
def ofIso? (t : Text) : Option Moment := do
  let ((year, month, day), t) ← date? t
  match t with
  | [] => make? year month day 0 0 0 0 none
  | c :: t =>
    if isSeparator c then
      let (hour, t) ← digits? 2 t
      let (minute, t) ← digits? 2 (← Text.after? [':'] t)
      let ((second, micro), t) ← seconds? t
      make? year month day hour minute second micro (← offset? t)
    else none

end MarkerBoard.Moment

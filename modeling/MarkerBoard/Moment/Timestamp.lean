import MarkerBoard.Number.Binary64
import MarkerBoard.Moment.Iso

/-!
# Moments given as numbers

A number stands for the seconds since 1970 began, in UTC, or for milliseconds when its magnitude
is above `2 * 10 ^ 10`. Moments before the year 1600 or after 9999 cannot be given this way.
-/
namespace MarkerBoard.Moment

/-- Numbers with a greater magnitude are milliseconds. -/
def millisecondsAbove : Int := 20000000000

/-- The start of the year 1600. -/
def earliestTimestamp : Int := -11676096000

/-- The last second of the year 9999. -/
def latestTimestamp : Int := 253402300799

/-- The moment of a whole number with some microseconds added. -/
def ofTimestamp? (n : Int) (micro : Nat) : Option Moment :=
  let inSeconds := n.natAbs ≤ millisecondsAbove.natAbs
  let seconds := if inSeconds then n else n.fdiv 1000
  let micro := if inSeconds then micro else micro + (n.fmod 1000).toNat * 1000
  let seconds := seconds + (micro / 1000000 : Nat)
  if earliestTimestamp ≤ seconds ∧ seconds ≤ latestTimestamp then
    ofUnix? seconds (micro % 1000000)
  else none

/-- A fraction below one in microseconds, rounded half up. -/
def microOfFraction (num den : Nat) : Nat := (2 * num * 1000000 + den) / (2 * den)

/-- The moment of a floating-point number: the fraction is measured on the magnitude, the whole
seconds go down. -/
def ofFloat? (x : Binary64) : Option Moment := do
  let (whole, num, den) ← x.floor?
  ofTimestamp? whole (microOfFraction num den)

/-- The moment of a decimal fraction, `num / den` of a given sign. -/
def ofFraction? (negative : Bool) (num den : Nat) : Option Moment :=
  let den := if num ≤ millisecondsAbove.natAbs * den then den else den * 1000
  let signed : Int := if negative then -num else num
  ofTimestamp? (signed.fdiv den) (microOfFraction (signed.fmod den).toNat den)

/-- A sign in front of a number. -/
def sign : Text → Bool × Text
  | '-' :: t => (true, t)
  | '+' :: t => (false, t)
  | t => (false, t)

/-- The moment of the text of a number. -/
def ofNumberText? (t : Text) : Option Moment :=
  let (negative, t) := sign t
  let whole := t.takeWhile Text.isAsciiDigit
  let value := Text.natOfDigits (whole.filterMap Text.asciiDigit?)
  match whole, t.dropWhile Text.isAsciiDigit with
  | [], _ => none
  | _, [] => ofTimestamp? (if negative then -value else value) 0
  | _, '.' :: places =>
    match places.mapM Text.asciiDigit? with
    | some ds =>
      let scale := Nat.pow 10 ds.length
      ofFraction? negative (value * scale + Text.natOfDigits ds) scale
    | none => none
  | _, _ => none

/-- Reads a moment from a text in any of its forms. -/
def ofText? (t : Text) : Option Moment := (ofIso? t).orElse fun _ => ofNumberText? t

end MarkerBoard.Moment

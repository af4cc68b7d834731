import MarkerBoard.Text.Digit
import MarkerBoard.Moment.Basic

/-!
# Minute stamps

A status line in a source file tells when it was written to the minute: `2024-01-02 09:00`. The
year is written without padding and read from exactly four digits. Digits of any script are
read, except where the first or second digit of a number is restricted.
-/
namespace MarkerBoard.Moment

/-- The stamp of a moment. -/
def toMinuteText (m : Moment) : Text :=
  Text.ofNat m.year ++ '-' :: Text.ofNatPadded 2 m.month ++ '-' :: Text.ofNatPadded 2 m.day ++
    ' ' :: Text.ofNatPadded 2 m.hour ++ ':' :: Text.ofNatPadded 2 m.minute

/-- A number of two digits that are ASCII as far as they decide on the range: the first digit
always, the second one after a first digit in `strict`. -/
def twoDigits? (strict : List Nat) (a b : Char) : Option Nat := do
  let tens ← Text.asciiDigit? a
  let ones ← if strict.contains tens then Text.asciiDigit? b else Text.digit? b
  pure (10 * tens + ones)

/-- The moment of a stamp whose parts are already apart. The date has to exist. -/
def ofMinuteParts? (year : Text) (mo₁ mo₂ d₁ d₂ h₁ h₂ mi₁ mi₂ : Char) : Option Moment := do
  let y ← year.mapM Text.digit?
  let mo ← twoDigits? [0, 1] mo₁ mo₂
  let d ← twoDigits? [0, 3] d₁ d₂
  let h ← twoDigits? [2] h₁ h₂
  let mi ← twoDigits? [] mi₁ mi₂
  make? (Text.natOfDigits y) mo d h mi 0 0 none

/-- Reads a stamp of four parts of a date and a time, with any white space between the two. -/
def ofMinuteText? (t : Text) : Option Moment :=
  match Text.words t with
  | [[y₁, y₂, y₃, y₄, '-', mo₁, mo₂, '-', d₁, d₂], [h₁, h₂, ':', mi₁, mi₂]] =>
    ofMinuteParts? [y₁, y₂, y₃, y₄] mo₁ mo₂ d₁ d₂ h₁ h₂ mi₁ mi₂
  | _ => none

end MarkerBoard.Moment

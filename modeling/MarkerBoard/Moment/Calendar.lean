/-!
# The calendar

Days of the Gregorian calendar, counted so that day 1 is 1 January of year 1.
-/
namespace MarkerBoard.Calendar

/-- Years with a 29th of February. -/
def isLeap (year : Nat) : Bool := year % 4 == 0 && (year % 100 != 0 || year % 400 == 0)

/-- The length of a month; there are no days outside the twelve months. -/
def daysInMonth (year month : Nat) : Nat :=
  match month with
  | 1 | 3 | 5 | 7 | 8 | 10 | 12 => 31
  | 4 | 6 | 9 | 11 => 30
  | 2 => if isLeap year then 29 else 28
  | _ => 0

/-- The days before a year. -/
def daysBeforeYear (year : Nat) : Nat :=
  let y := year - 1
  365 * y + y / 4 - y / 100 + y / 400

/-- The days of a year before a month. -/
def daysBeforeMonth (year month : Nat) : Nat :=
  (List.range (month - 1)).foldr (fun m n => daysInMonth year (m + 1) + n) 0

/-- The number of a day. -/
def dayNumber (year month day : Nat) : Nat :=
  daysBeforeYear year + daysBeforeMonth year month + day

/-- The last day: 31 December 9999. -/
def lastDay : Nat := 3652059

/-- The day of the year and the rest of the months, found from January on. -/
def monthOf (year : Nat) : (months month rest : Nat) → Nat × Nat
  | 0, month, rest => (month, rest)
  | months + 1, month, rest =>
    if rest ≤ daysInMonth year month then (month, rest)
    else monthOf year months (month + 1) (rest - daysInMonth year month)

/-- Year, month and day of a day number. The year is found among the two that an average year
length of 365.2425 days leaves. -/
def dateOf (number : Nat) : Nat × Nat × Nat :=
  let guess := (number * 400) / 146097 + 1
  let year :=
    if number ≤ daysBeforeYear guess then guess - 1
    else if daysBeforeYear (guess + 1) < number then guess + 1
    else guess
  let (month, day) := monthOf year 11 1 (number - daysBeforeYear year)
  (year, month, day)

end MarkerBoard.Calendar

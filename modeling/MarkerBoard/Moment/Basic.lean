import MarkerBoard.Text.Basic
import MarkerBoard.Moment.Calendar

/-!
# Moments

A moment is a date and a time of day to the microsecond, with or without an offset from UTC. A
moment without an offset is a wall-clock reading; where instants are compared it counts as UTC.
Only dates that exist can be built, of the years 1 to 9999.
-/
namespace MarkerBoard

/-- The date exists, the time is one of a day of 24 hours, and the offset is shorter than a
day. -/
def Moment.Valid (year month day hour minute second micro : Nat) (offset : Option Int) : Prop :=
  (1 ≤ year ∧ year ≤ 9999) ∧ (1 ≤ month ∧ month ≤ 12) ∧
    (1 ≤ day ∧ day ≤ Calendar.daysInMonth year month) ∧
    hour < 24 ∧ minute < 60 ∧ second < 60 ∧ micro < 1000000 ∧
    -1440 < offset.getD 0 ∧ offset.getD 0 < 1440

instance (y mo d h mi s us : Nat) (off : Option Int) :
    Decidable (Moment.Valid y mo d h mi s us off) :=
  inferInstanceAs (Decidable (_ ∧ _))

/-- A date and time of day. -/
structure Moment where
  year : Nat
  month : Nat
  day : Nat
  hour : Nat
  minute : Nat
  second : Nat
  micro : Nat
  /-- Minutes east of UTC. -/
  offset : Option Int
  valid : Moment.Valid year month day hour minute second micro offset
deriving DecidableEq

namespace Moment

/-- The moment with the given parts, if there is one. -/
def make? (year month day hour minute second micro : Nat) (offset : Option Int) :
    Option Moment :=
  if h : Valid year month day hour minute second micro offset then
    some ⟨year, month, day, hour, minute, second, micro, offset, h⟩
  else none

/-- Midnight at the start of the year 1, without an offset. -/
def first : Moment := ⟨1, 1, 1, 0, 0, 0, 0, none, by decide⟩

instance : Inhabited Moment := ⟨first⟩

/-- The number of the moment's day. -/
def dayNumber (m : Moment) : Nat := Calendar.dayNumber m.year m.month m.day

/-- Microseconds since the start of the moment's day. -/
def timeOfDay (m : Moment) : Nat :=
  ((m.hour * 60 + m.minute) * 60 + m.second) * 1000000 + m.micro

/-- Microseconds in a day. -/
def dayLength : Nat := 86400000000

/-- The instant in microseconds from the day before day 1; a moment without an offset counts as
UTC. -/
def instant (m : Moment) : Int :=
  (m.dayNumber * dayLength + m.timeOfDay : Nat) - m.offset.getD 0 * 60000000

/-- Day 1 is this many days before 1 January 1970. -/
def unixEpochDay : Nat := 719163

/-- The moment in UTC a number of seconds after 1970 began. -/
def ofUnix? (seconds : Int) (micro : Nat) : Option Moment :=
  let day := seconds.fdiv 86400 + unixEpochDay
  let rest := (seconds.fmod 86400).toNat
  if day < 1 then none
  else
    let (year, month, dayOfMonth) := Calendar.dateOf day.toNat
    make? year month dayOfMonth (rest / 3600) (rest / 60 % 60) (rest % 60) micro (some 0)

end Moment
end MarkerBoard

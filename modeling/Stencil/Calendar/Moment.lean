import Stencil.Calendar.Date

/-! # Moments

An instant seen at an offset from UTC, and the wall clock that shows it. A leap second is second 59
with a thousand million nanoseconds or more. -/

namespace Stencil.Calendar

def secondsPerDay : Int := 86400

/-- The day number of 1 January 1970, where instants are counted from. -/
def epochDay : Int := 719162

/-- A time of day on a date, in no zone. -/
structure WallTime where
  date : Date
  hour : Nat
  minute : Nat
  second : Nat
  nanos : Nat
  deriving DecidableEq, Repr

/-- The seconds since the epoch, if the wall clock shows UTC. -/
def WallTime.seconds (w : WallTime) : Int :=
  (w.date.dayNumber - epochDay) * secondsPerDay + (w.hour * 3600 + w.minute * 60 + w.second : Nat)

/-- What the wall clock shows so many seconds after the epoch. -/
def WallTime.ofSeconds (seconds : Int) (nanos : Nat) : WallTime :=
  let time := (seconds % secondsPerDay).toNat
  { date := Date.ofDayNumber (seconds / secondsPerDay + epochDay)
    hour := time / 3600
    minute := time / 60 % 60
    second := time % 60
    nanos }

/-- The wall time of valid parts; second 60 is a leap second. -/
def WallTime.ofParts? (year : Int) (month day hour minute second nanos : Nat) : Option WallTime := do
  let date ← Date.ofParts? year month day
  if 23 < hour ∨ 59 < minute ∨ 60 < second then none
  else if second = 60 then some ⟨date, hour, minute, 59, nanos + 1000000000⟩
  else some ⟨date, hour, minute, second, nanos⟩

structure Moment where
  /-- Since the epoch. -/
  seconds : Int
  nanos : Nat
  /-- Seconds east of UTC. -/
  offset : Int
  deriving DecidableEq, Repr

namespace Moment

/-- The instants whose date in UTC exists. -/
def inRange (seconds : Int) : Bool :=
  (⟨⟨firstYear, 1, 1⟩, 0, 0, 0, 0⟩ : WallTime).seconds ≤ seconds &&
    seconds ≤ (⟨⟨lastYear, 12, 31⟩, 23, 59, 59, 0⟩ : WallTime).seconds

/-- The moment at which clocks so far east show a wall time. -/
def ofWallTime? (w : WallTime) (offset : Int) : Option Moment :=
  let seconds := w.seconds - offset
  if inRange seconds then some ⟨seconds, w.nanos, offset⟩ else none

/-- What clocks at the moment's offset show. -/
def wallTime (m : Moment) : WallTime := .ofSeconds (m.seconds + m.offset) m.nanos

end Moment
end Stencil.Calendar

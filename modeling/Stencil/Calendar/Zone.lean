import Stencil.Calendar.Moment
import Stencil.Text.Basic

/-! # Time zones

A zone has a standard time and perhaps a summer time, which two Sundays of the year bound. A wall time
in the gap of spring belongs to no moment, one in the overlap of autumn to the earlier of two. -/

namespace Stencil.Calendar

/-- What clocks of a zone show during part of a year. -/
structure Regime where
  /-- Seconds east of UTC. -/
  offset : Int
  abbreviation : Option Text
  isSummer : Bool
  deriving DecidableEq, Repr

/-- A time of day, in seconds of UTC, on a Sunday of a month: the last one, or the one that stands `n`
weeks behind the first. -/
structure Switch where
  month : Nat
  sunday : Option Nat
  time : Int
  deriving DecidableEq, Repr

/-- The instant of a switch in a year. -/
def Switch.instant (s : Switch) (year : Int) : Int :=
  let sundayFrom (d : Date) : Int := d.dayNumber + (6 - d.weekday : Nat)
  let day := match s.sunday with
    | some n => sundayFrom ⟨year, s.month, 1⟩ + 7 * n
    | none => sundayFrom ⟨year, s.month, monthLength year s.month - 6⟩
  (day - epochDay) * secondsPerDay + s.time

structure SummerTime where
  regime : Regime
  begins : Switch
  ends : Switch
  /-- The first year in which the switches hold. -/
  since : Int
  deriving DecidableEq, Repr

structure Zone where
  name : Text
  standard : Regime
  summer : Option SummerTime
  deriving DecidableEq, Repr

namespace Zone

/-- The last year for which zones know a summer time. -/
def lastSummer : Int := 2099

/-- What the clocks of a zone show at an instant. -/
def regimeAt (z : Zone) (seconds : Int) : Regime :=
  match z.summer with
  | none => z.standard
  | some s =>
    let year := (WallTime.ofSeconds seconds 0).date.year
    if s.since ≤ year ∧ year ≤ lastSummer ∧ s.begins.instant year ≤ seconds ∧
        seconds < s.ends.instant year then
      s.regime
    else z.standard

/-- The first moment at which the clocks of a zone show a wall time. Summer time runs ahead, so its
moment is the earlier one. -/
def moment? (z : Zone) (w : WallTime) : Option Moment :=
  let fits (r : Regime) := z.regimeAt (w.seconds - r.offset) == r
  let regime? := match z.summer with
    | some s => if fits s.regime then some s.regime else if fits z.standard then some z.standard else none
    | none => some z.standard
  regime?.bind fun r => Moment.ofWallTime? w r.offset

/-- A zone in which clocks are never changed. -/
def fixed (name : String) (offset : Int) (abbreviation : Option String) : Zone :=
  ⟨name.toList, ⟨offset, abbreviation.map String.toList, false⟩, none⟩

def utc : Zone := fixed "UTC" 0 "UTC"

/-- The summer time of central Europe. -/
def berlin : Zone where
  name := "Europe/Berlin".toList
  standard := ⟨3600, some "CET".toList, false⟩
  summer := some {
    regime := ⟨7200, some "CEST".toList, true⟩
    begins := ⟨3, none, 3600⟩
    ends := ⟨10, none, 3600⟩
    since := 1996 }

def newYork : Zone where
  name := "America/New_York".toList
  standard := ⟨-18000, some "EST".toList, false⟩
  summer := some {
    regime := ⟨-14400, some "EDT".toList, true⟩
    begins := ⟨3, some 1, 25200⟩
    ends := ⟨11, some 0, 21600⟩
    since := 2007 }

/-- The zones known by name. -/
def all : List Zone :=
  [utc, berlin, newYork, fixed "Asia/Kolkata" 19800 "IST", fixed "Asia/Dubai" 14400 none]

def ofName? (name : Text) : Option Zone := all.find? (·.name == name)

end Zone

/-- Where and when a date is read and written. Without a known zone, clocks show UTC. -/
structure Observer where
  zone : Option Zone
  /-- The present instant. -/
  now : Int

namespace Observer

/-- The moment of an instant on the observer's clock. -/
def see (o : Observer) (seconds : Int) (nanos : Nat) : Moment :=
  ⟨seconds, nanos, o.zone.elim 0 fun z => (z.regimeAt seconds).offset⟩

/-- The moment at which the observer's clock shows a wall time. -/
def moment? (o : Observer) (w : WallTime) : Option Moment :=
  match o.zone with
  | some z => z.moment? w
  | none => Moment.ofWallTime? w 0

/-- Midnight at the beginning of a day, counted from today. -/
def midnight? (o : Observer) (days : Int) : Option Moment :=
  let today := (o.see o.now 0).wallTime.date
  o.moment? ⟨Date.ofDayNumber (today.dayNumber + days), 0, 0, 0, 0⟩

/-- The regime of the observer's zone, if the moment is seen at its offset. -/
def regime? (o : Observer) (m : Moment) : Option (Zone × Regime) := do
  let z ← o.zone
  let r := z.regimeAt m.seconds
  if r.offset = m.offset then some (z, r) else none

end Observer
end Stencil.Calendar

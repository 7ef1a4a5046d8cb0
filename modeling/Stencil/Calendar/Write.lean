import Stencil.Calendar.Zone
import Stencil.Decimal.Notation

/-! # Writing dates

Every letter of a format stands for a part of the date; a backslash takes the next character as it is,
and all other characters stand for themselves. Main statements: `fillFormat_append` (formats compose)
and `fillFormat_escaped` (any text can be written literally). -/

namespace Stencil.Calendar
open Text Decimal

def weekdayNames : List String :=
  ["Monday", "Tuesday", "Wednesday", "Thursday", "Friday", "Saturday", "Sunday"]

def monthNames : List String :=
  ["January", "February", "March", "April", "May", "June", "July", "August", "September", "October",
    "November", "December"]

/-- The name at a place, which may be cut. -/
def nameAt (names : List String) (i : Nat) : Text := (names[i]?.getD "").toList

/-- The ending of an ordinal number. -/
def ordinalSuffix (n : Nat) : Text :=
  if 11 ≤ n % 100 ∧ n % 100 ≤ 13 then "th".toList
  else if n % 10 = 1 then "st".toList
  else if n % 10 = 2 then "nd".toList
  else if n % 10 = 3 then "rd".toList
  else "th".toList

/-- An offset in hours and minutes; half a minute rounds away from zero. -/
def offsetText (between : Text) (offset : Int) : Text :=
  let minutes := (offset.natAbs + 30) / 60
  (if offset < 0 then '-' else '+') :: padded 2 (minutes / 60) ++ between ++ padded 2 (minutes % 60)

/-- A year in four digits; outside them it carries a sign. -/
def yearText (year : Int) : Text :=
  if 0 ≤ year ∧ year ≤ 9999 then padded 4 year.natAbs
  else (if year < 0 then '-' else '+') :: padded 4 year.natAbs

/-- The hour on a clock face. -/
def faceHour (hour : Nat) : Nat := if hour % 12 = 0 then 12 else hour % 12

/-- Thousandths of the day at one hour east of UTC. -/
def beats (seconds : Int) : Nat := ((seconds + 3600) % secondsPerDay * 10 / 864).toNat

/-- `hh:mm:ss`, a leap second being second 60. -/
def clockText (w : WallTime) : Text :=
  padded 2 w.hour ++ ':' :: padded 2 w.minute ++ ':' :: padded 2 (w.second + w.nanos / 1000000000)

/-- What a letter of a format stands for; `known` is the zone in which the moment is seen. -/
def letter? (m : Moment) (known : Option (Zone × Regime)) (c : Char) : Option Text :=
  let w := m.wallTime
  let d := w.date
  let colonOffset := offsetText [':'] m.offset
  let shortDay := (nameAt weekdayNames d.weekday).take 3
  let shortMonth := (nameAt monthNames (d.month - 1)).take 3
  match c with
  -- days
  | 'd' => padded 2 d.day
  | 'D' => shortDay
  | 'j' => natural d.day
  | 'l' => nameAt weekdayNames d.weekday
  | 'N' => natural (d.weekday + 1)
  | 'S' => ordinalSuffix d.day
  | 'w' => natural ((d.weekday + 1) % 7)
  | 'z' => natural d.ordinal
  -- weeks
  | 'W' => padded 2 d.week.2
  | 'o' => integer d.week.1
  -- months
  | 'F' => nameAt monthNames (d.month - 1)
  | 'm' => padded 2 d.month
  | 'M' => shortMonth
  | 'n' => natural d.month
  | 't' => integer (daysInMonth d.year d.month)
  -- years
  | 'L' => if hasLeapDay d.year then ['1'] else ['0']
  | 'Y' => integer d.year
  | 'y' => padded 2 (d.year % 100).toNat
  -- times
  | 'a' => if w.hour < 12 then "am".toList else "pm".toList
  | 'A' => if w.hour < 12 then "AM".toList else "PM".toList
  | 'B' => padded 3 (beats m.seconds)
  | 'g' => natural (faceHour w.hour)
  | 'G' => natural w.hour
  | 'h' => padded 2 (faceHour w.hour)
  | 'H' => padded 2 w.hour
  | 'i' => padded 2 w.minute
  | 's' => padded 2 w.second
  | 'u' => padded 6 (w.nanos % 1000000000 / 1000)
  | 'v' => padded 3 (w.nanos % 1000000000 / 1000000)
  -- zones
  | 'e' => known.elim colonOffset (·.1.name)
  | 'T' => known.elim colonOffset (·.2.abbreviation.getD colonOffset)
  | 'I' => if known.any (·.2.isSummer) then ['1'] else ['0']
  | 'P' => colonOffset
  | 'O' => offsetText [] m.offset
  | 'p' => if m.offset = 0 then ['Z'] else colonOffset
  | 'Z' => integer m.offset
  -- all of it
  | 'c' => yearText d.year ++ '-' :: padded 2 d.month ++ '-' :: padded 2 d.day ++ 'T' :: clockText w ++
      colonOffset
  | 'r' => shortDay ++ ", ".toList ++ padded 2 d.day ++ ' ' :: shortMonth ++ ' ' :: yearText d.year ++
      ' ' :: clockText w ++ ' ' :: offsetText [] m.offset
  | 'U' => integer m.seconds
  | _ => none

/-- A character of a format that no backslash precedes. -/
def token (m : Moment) (known : Option (Zone × Regime)) (c : Char) : Text := (letter? m known c).getD [c]

/-- Fills a format in, given what each character stands for. -/
def fillFormat (token : Char → Text) : Text → Text
  | [] => []
  | '\\' :: [] => []
  | '\\' :: c :: s => c :: fillFormat token s
  | c :: s => token c ++ fillFormat token s

/-- The date in a format. -/
def write (m : Moment) (format : Text) (known : Option (Zone × Regime)) : Text :=
  fillFormat (token m known) format

/-- The date in a format, with the names that the observer's zone gives it. -/
def Observer.write (o : Observer) (m : Moment) (format : Text) : Text :=
  Calendar.write m format (o.regime? m)

/-! ### Formats compose -/

/-- Whether a backslash at the end of a format waits for the character it takes. -/
def isPending : Text → Bool
  | [] => false
  | '\\' :: [] => true
  | '\\' :: _ :: s => isPending s
  | _ :: s => isPending s

theorem fillFormat_cons (token : Char → Text) {c : Char} (h : c ≠ '\\') (s : Text) :
    fillFormat token (c :: s) = token c ++ fillFormat token s := by
  rw [fillFormat] <;> simp_all

theorem isPending_cons {c : Char} (h : c ≠ '\\') (s : Text) : isPending (c :: s) = isPending s := by
  rw [isPending] <;> simp_all

/-- A format is read in steps of one character, and of two where a backslash takes one. -/
@[elab_as_elim]
theorem format_induction {P : Text → Prop} (nil : P []) (pending : P ['\\'])
    (taken : ∀ c s, P s → P ('\\' :: c :: s)) (plain : ∀ c s, c ≠ '\\' → P s → P (c :: s)) (f : Text) : P f := by
  fun_induction isPending f with
  | case1 => exact nil
  | case2 => exact pending
  | case3 c s ih => exact taken c s ih
  | case4 c s last more ih =>
    refine plain c s ?_ ih
    rintro rfl
    cases s with
    | nil => exact last rfl rfl
    | cons d s => exact more d s rfl rfl

theorem fillFormat_append (token : Char → Text) {f : Text} (h : isPending f = false) (g : Text) :
    fillFormat token (f ++ g) = fillFormat token f ++ fillFormat token g := by
  induction f using format_induction with
  | nil => rfl
  | pending => cases h
  | taken c f ih => exact congrArg (c :: ·) (ih h)
  | plain c f hc ih =>
    rw [isPending_cons hc] at h
    rw [List.cons_append, fillFormat_cons token hc, fillFormat_cons token hc, ih h, List.append_assoc]

/-- A text with a backslash before every character. -/
def escaped (s : Text) : Text := s.flatMap fun c => ['\\', c]

theorem fillFormat_escaped (token : Char → Text) (s : Text) : fillFormat token (escaped s) = s := by
  induction s with
  | nil => rfl
  | cons c s ih =>
    simp only [escaped, List.flatMap_cons, List.cons_append, List.nil_append, fillFormat] at *
    rw [ih]

end Stencil.Calendar

import Mathlib.Order.Monotone.Basic
import Stencil.Calendar.Moment

/-! # Days and dates

The dates of the calendar and the whole numbers are in step: what `ofDayNumber` finds is a date of the calendar with
that number (`valid_ofDayNumber`, `dayNumber_ofDayNumber`), and no two dates have one number (`dayNumber_inj`). So
every date is shown by clocks at some moment (`exists_wallTime`). -/

namespace Stencil.Calendar

theorem isLeap_iff {year : Int} : isLeap year = true ↔ year % 4 = 0 ∧ (year % 100 ≠ 0 ∨ year % 400 = 0) := by
  simp [isLeap]

theorem daysBeforeYear_mono {year year' : Int} (h : year ≤ year') : daysBeforeYear year ≤ daysBeforeYear year' := by
  simp only [daysBeforeYear]
  omega

theorem daysBeforeMonth_succ {year : Int} {month : Nat} (h : 1 ≤ month) :
    daysBeforeMonth year (month + 1) = daysBeforeMonth year month + monthLength year month := by
  obtain ⟨m, rfl⟩ := Nat.exists_eq_add_of_le' h
  rw [daysBeforeMonth]

theorem daysBeforeMonth_mono (year : Int) : Monotone (daysBeforeMonth year) := by
  refine monotone_nat_of_le_succ fun month => ?_
  cases month with
  | zero => exact Nat.le_refl 0
  | succ month => exact (daysBeforeMonth_succ (Nat.le_add_left 1 month)).symm ▸ Nat.le_add_right ..

theorem daysBeforeMonth_all (year : Int) : daysBeforeMonth year 13 = if isLeap year then 366 else 365 := by
  rw [daysBeforeMonth_succ (by decide), daysBeforeMonth_thirteen]

theorem daysBeforeYear_succ_eq (year : Int) :
    daysBeforeYear (year + 1) = daysBeforeYear year + daysBeforeMonth year 13 := by
  rw [daysBeforeYear_succ, daysBeforeMonth_all]
  split <;> rfl

theorem daysBeforeYear_cycles {cycles : Int} {centuries fours years : Nat} (hcenturies : centuries ≤ 3)
    (hfours : fours ≤ 24) (hyears : years ≤ 3) :
    daysBeforeYear (400 * cycles + 100 * centuries + 4 * fours + years + 1) =
      146097 * cycles + 36524 * centuries + 1461 * fours + 365 * years := by
  simp only [daysBeforeYear]
  omega

/-- The last year of four has a day more, but for that of a century which is not the last one of its cycle. -/
theorem isLeap_cycles {cycles : Int} {centuries fours : Nat} (hfours : fours ≤ 24)
    (hlast : fours = 24 → centuries = 3) : isLeap (400 * cycles + 100 * centuries + 4 * fours + 3 + 1) = true := by
  rw [isLeap_iff]
  omega

namespace Date

/-- A date of the calendar, in any year. -/
structure Valid (d : Date) : Prop where
  month_pos : 1 ≤ d.month
  month_le : d.month ≤ 12
  day_pos : 1 ≤ d.day
  day_le : d.day ≤ monthLength d.year d.month

theorem ofParts?_eq_some_iff {year : Int} {month day : Nat} {d : Date} : ofParts? year month day = some d ↔
    d = ⟨year, month, day⟩ ∧ d.Valid ∧ firstYear ≤ d.year ∧ d.year ≤ lastYear := by
  rw [ofParts?, Option.ite_none_right_eq_some, Option.some.injEq]
  constructor
  · rintro ⟨⟨hfirst, hlast, hmonth, hmonths, hday, hdays⟩, rfl⟩
    exact ⟨rfl, ⟨hmonth, hmonths, hday, hdays⟩, hfirst, hlast⟩
  · rintro ⟨rfl, h, hfirst, hlast⟩
    exact ⟨⟨hfirst, hlast, h.month_pos, h.month_le, h.day_pos, h.day_le⟩, rfl⟩

theorem Valid.ordinal_eq {d : Date} (h : d.Valid) : d.ordinal + 1 = daysBeforeMonth d.year d.month + d.day := by
  have := h.day_pos
  rw [ordinal]
  omega

theorem Valid.ordinal_lt {d : Date} (h : d.Valid) : d.ordinal < daysBeforeMonth d.year (d.month + 1) := by
  have hordinal := h.ordinal_eq
  have hday := h.day_le
  rw [daysBeforeMonth_succ h.month_pos]
  omega

/-- The month is found from any month on that no more days of the year come before. -/
theorem inYear_go_spec {year : Int} {month more left : Nat} (hmonth : 1 ≤ month) (hmore : month + more = 12)
    (hleft : daysBeforeMonth year month + left < daysBeforeMonth year 13) :
    (inYear.go year month more left).Valid ∧ (inYear.go year month more left).year = year ∧
      (inYear.go year month more left).ordinal = daysBeforeMonth year month + left := by
  induction more generalizing month left with
  | zero =>
    obtain rfl : month = 12 := hmore
    rw [daysBeforeMonth_succ (by decide)] at hleft
    exact ⟨⟨hmonth, Nat.le_refl 12, Nat.le_add_left 1 left, Nat.lt_of_add_lt_add_left hleft⟩, rfl, rfl⟩
  | succ more ih =>
    rw [inYear.go]
    split
    · next h => exact ⟨⟨hmonth, by dsimp only; omega, Nat.le_add_left 1 left, h⟩, rfl, rfl⟩
    · -- this month goes off, and the days left are of the months behind it
      have hoff : daysBeforeMonth year (month + 1) + (left - monthLength year month) =
          daysBeforeMonth year month + left := by
        rw [daysBeforeMonth_succ hmonth]
        omega
      rw [← hoff] at hleft ⊢
      exact ih (by omega) (by omega) hleft

theorem inYear_spec {year : Int} {ordinal : Nat} (h : ordinal < daysBeforeMonth year 13) :
    (inYear year ordinal).Valid ∧ (inYear year ordinal).year = year ∧ (inYear year ordinal).ordinal = ordinal := by
  have hbefore : daysBeforeMonth year 1 + ordinal = ordinal := Nat.zero_add ordinal
  have hspec := inYear_go_spec (Nat.le_refl 1) (show 1 + 11 = 12 from rfl) (hbefore.symm ▸ h)
  rwa [hbefore] at hspec

theorem exists_ofDayNumber_eq (n : Int) : ∃ (year : Int) (ordinal : Nat),
    ofDayNumber n = inYear year ordinal ∧ ordinal < daysBeforeMonth year 13 ∧ daysBeforeYear year + ordinal = n := by
  refine ⟨_, _, rfl, ?_⟩
  generalize hcycles : n / 146097 = cycles
  generalize hinCycle : (n % 146097).toNat = inCycle
  generalize hcenturies : min (inCycle / 36524) 3 = centuries
  generalize hinCentury : inCycle - centuries * 36524 = inCentury
  generalize hfours : inCentury / 1461 = fours
  generalize hinFour : inCentury - fours * 1461 = inFour
  generalize hyears : min (inFour / 365) 3 = years
  have hn : 146097 * cycles + inCycle = n ∧ inCycle < 146097 := by omega
  have hcentury : 36524 * centuries + inCentury = inCycle ∧ centuries ≤ 3 ∧ inCentury ≤ 36524 ∧
      (inCentury = 36524 → centuries = 3) := by omega
  have hfour : 1461 * fours + inFour = inCentury ∧ fours ≤ 24 ∧ inFour ≤ 1460 ∧
      (inFour = 1460 → fours = 24 → inCentury = 36524) := by omega
  have hyear : 365 * years ≤ inFour ∧ years ≤ 3 ∧ inFour - years * 365 ≤ 365 ∧
      (inFour - years * 365 = 365 → years = 3 ∧ inFour = 1460) := by omega
  constructor
  · rw [daysBeforeMonth_all]
    split
    · omega
    · next h =>
      refine Nat.lt_of_le_of_ne hyear.2.2.1 fun heq => h ?_
      obtain ⟨rfl, hlast⟩ := hyear.2.2.2 heq
      exact isLeap_cycles hfour.2.1 fun h => hcentury.2.2.2 (hfour.2.2.2 hlast h)
  · rw [daysBeforeYear_cycles hcentury.2.1 hfour.2.1 hyear.2.1]
    omega

theorem valid_ofDayNumber (n : Int) : (ofDayNumber n).Valid := by
  obtain ⟨year, ordinal, heq, hlt, -⟩ := exists_ofDayNumber_eq n
  exact heq ▸ (inYear_spec hlt).1

theorem dayNumber_ofDayNumber (n : Int) : (ofDayNumber n).dayNumber = n := by
  obtain ⟨year, ordinal, heq, hlt, hn⟩ := exists_ofDayNumber_eq n
  obtain ⟨-, hyear, hordinal⟩ := inYear_spec hlt
  rw [heq, dayNumber, hyear, hordinal, hn]

theorem daysBeforeYear_le_dayNumber (d : Date) : daysBeforeYear d.year ≤ d.dayNumber :=
  Int.le_add_of_nonneg_right (Int.natCast_nonneg _)

theorem Valid.dayNumber_lt_daysBeforeYear {d : Date} (h : d.Valid) : d.dayNumber < daysBeforeYear (d.year + 1) := by
  have hnext : d.month + 1 ≤ 13 := Nat.succ_le_succ h.month_le
  have hmonths := daysBeforeMonth_mono d.year hnext
  have hordinal := h.ordinal_lt
  rw [daysBeforeYear_succ_eq, dayNumber]
  omega

theorem Valid.dayNumber_lt_dayNumber {d d' : Date} (h : d.Valid) (hyear : d.year < d'.year) :
    d.dayNumber < d'.dayNumber :=
  Int.lt_of_lt_of_le h.dayNumber_lt_daysBeforeYear
    (Int.le_trans (daysBeforeYear_mono (Int.add_one_le_of_lt hyear)) (daysBeforeYear_le_dayNumber d'))

theorem Valid.ordinal_lt_ordinal {d d' : Date} (h : d.Valid) (h' : d'.Valid) (hyear : d.year = d'.year)
    (hmonth : d.month < d'.month) : d.ordinal < d'.ordinal := by
  have hnext : d.month + 1 ≤ d'.month := hmonth
  have hmonths := daysBeforeMonth_mono d.year hnext
  have hordinal := h.ordinal_lt
  have hordinal' := h'.ordinal_eq
  have hday := h'.day_pos
  rw [← hyear] at hordinal'
  omega

theorem dayNumber_inj {d d' : Date} (h : d.Valid) (h' : d'.Valid) (heq : d.dayNumber = d'.dayNumber) : d = d' := by
  have hyear : d.year = d'.year := by
    rcases Int.lt_trichotomy d.year d'.year with hlt | hyear | hlt
    · exact absurd heq (Int.ne_of_lt (h.dayNumber_lt_dayNumber hlt))
    · exact hyear
    · exact absurd heq.symm (Int.ne_of_lt (h'.dayNumber_lt_dayNumber hlt))
  have hordinal : d.ordinal = d'.ordinal := by
    rw [dayNumber, dayNumber, hyear] at heq
    omega
  have hmonth : d.month = d'.month := by
    rcases Nat.lt_trichotomy d.month d'.month with hlt | hmonth | hlt
    · exact absurd hordinal (Nat.ne_of_lt (h.ordinal_lt_ordinal h' hyear hlt))
    · exact hmonth
    · exact absurd hordinal.symm (Nat.ne_of_lt (h'.ordinal_lt_ordinal h hyear.symm hlt))
  have hday : d.day = d'.day := by
    have hday := h.ordinal_eq
    rw [hordinal, h'.ordinal_eq, hyear, hmonth] at hday
    omega
  obtain ⟨year, month, day⟩ := d
  obtain ⟨year', month', day'⟩ := d'
  simp_all

theorem ofDayNumber_dayNumber {d : Date} (h : d.Valid) : ofDayNumber d.dayNumber = d :=
  dayNumber_inj (valid_ofDayNumber _) h (dayNumber_ofDayNumber _)

end Date

namespace Moment

theorem valid_wallTime (m : Moment) : m.wallTime.date.Valid := Date.valid_ofDayNumber _

theorem inRange_midnight {d : Date} (h : d.Valid) (hfirst : firstYear ≤ d.year) (hlast : d.year ≤ lastYear) :
    inRange ((d.dayNumber - epochDay) * secondsPerDay) = true := by
  have hstart : (⟨⟨firstYear, 1, 1⟩, 0, 0, 0, 0⟩ : WallTime).seconds =
    (daysBeforeYear firstYear - epochDay) * secondsPerDay := by decide
  have hend : (⟨⟨lastYear, 12, 31⟩, 23, 59, 59, 0⟩ : WallTime).seconds =
    (daysBeforeYear (lastYear + 1) - epochDay) * secondsPerDay - 1 := by decide
  have hge := Int.le_trans (daysBeforeYear_mono hfirst) d.daysBeforeYear_le_dayNumber
  have hlt := Int.lt_of_lt_of_le h.dayNumber_lt_daysBeforeYear (daysBeforeYear_mono (Int.add_le_add_right hlast 1))
  rw [inRange, hstart, hend, Bool.and_eq_true, decide_eq_true_iff, decide_eq_true_iff, secondsPerDay]
  omega

theorem exists_wallTime {d : Date} (h : d.Valid) (hfirst : firstYear ≤ d.year) (hlast : d.year ≤ lastYear) :
    ∃ m : Moment, inRange m.seconds = true ∧ m.offset = 0 ∧ m.wallTime.date = d := by
  refine ⟨⟨(d.dayNumber - epochDay) * secondsPerDay, 0, 0⟩, inRange_midnight h hfirst hlast, rfl, ?_⟩
  rw [wallTime, WallTime.ofSeconds, Int.add_zero, Int.mul_ediv_cancel _ (by decide), Int.sub_add_cancel,
    Date.ofDayNumber_dayNumber h]

end Moment
end Stencil.Calendar

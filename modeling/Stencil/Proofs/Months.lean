import Stencil.Calendar.Write
import Stencil.Proofs.Days

/-! # Months in formats

The length of a month is counted as the days up to the first of the next one. That is the length by the calendar,
except in the very last month, which has no next one (`daysInMonth_eq`). Leap years are found by their 29 February
(`hasLeapDay_eq`), and what formats show of both is `write_monthLength_iff`. -/

namespace Stencil.Calendar
open Text Decimal

variable {year : Int} {month : Nat} {m : Moment} {known : Option (Zone × Regime)}

theorem monthLength_pos (year : Int) (month : Nat) : 1 ≤ monthLength year month := by
  rw [monthLength]
  split <;> split <;> decide

theorem monthLength_two (year : Int) : monthLength year 2 = if isLeap year then 29 else 28 := if_pos rfl

theorem ofParts?_first (hfirst : firstYear ≤ year) (hlast : year ≤ lastYear) (hmonth : 1 ≤ month ∧ month ≤ 12) :
    Date.ofParts? year month 1 = some ⟨year, month, 1⟩ :=
  Date.ofParts?_eq_some_iff.2 ⟨rfl, ⟨hmonth.1, hmonth.2, Nat.le_refl 1, monthLength_pos year month⟩, hfirst, hlast⟩

theorem daysInMonth_eq (hfirst : firstYear ≤ year) (hlast : year ≤ lastYear) (hmonth : 1 ≤ month ∧ month ≤ 12) :
    daysInMonth year month = if year = lastYear ∧ month = 12 then 30 else (monthLength year month : Int) := by
  rw [daysInMonth, ofParts?_first hfirst hlast hmonth]
  by_cases hdecember : month = 12
  · subst hdecember
    rw [if_pos rfl]
    by_cases hyear : year = lastYear
    · rw [if_pos ⟨hyear, rfl⟩, hyear]
      rfl
    · have hnext : year + 1 ≤ lastYear := by omega
      rw [if_neg fun h => hyear h.1]
      dsimp only
      rw [ofParts?_first (by omega) hnext (by decide)]
      dsimp only
      rw [dayNumber_succ_year]
      omega
  · rw [if_neg hdecember, if_neg fun h => hdecember h.2]
    dsimp only
    rw [ofParts?_first hfirst hlast (by omega)]
    dsimp only
    rw [dayNumber_succ_month year month hmonth.1]
    omega

theorem hasLeapDay_eq (hfirst : firstYear ≤ year) (hlast : year ≤ lastYear) : hasLeapDay year = isLeap year := by
  rw [hasLeapDay, Date.ofParts?, monthLength_two]
  cases isLeap year <;> simp [hfirst, hlast]

theorem write_append_cons {f : Text} {c : Char} (hf : isPending f = false) (hc : c ≠ '\\') (g : Text) :
    write m (f ++ c :: g) known = write m f known ++ token m known c ++ write m g known := by
  rw [write, fillFormat_append _ hf, fillFormat_cons _ hc, List.append_assoc]
  rfl

theorem token_t (hfirst : firstYear ≤ m.wallTime.date.year) (hlast : m.wallTime.date.year ≤ lastYear) :
    token m known 't' =
      if m.wallTime.date.year = lastYear ∧ m.wallTime.date.month = 12 then "30".toList
      else natural (monthLength m.wallTime.date.year m.wallTime.date.month) := by
  have hvalid := m.valid_wallTime
  show integer (daysInMonth _ _) = _
  rw [daysInMonth_eq hfirst hlast ⟨hvalid.month_pos, hvalid.month_le⟩]
  split
  · decide
  · rfl

theorem token_L (hfirst : firstYear ≤ m.wallTime.date.year) (hlast : m.wallTime.date.year ≤ lastYear) :
    token m known 'L' = if isLeap m.wallTime.date.year then ['1'] else ['0'] := by
  rw [← hasLeapDay_eq hfirst hlast]
  show (if hasLeapDay _ then some ['1'] else some ['0']).getD ['L'] = _
  split <;> rfl

theorem write_singleton {c : Char} (hc : c ≠ '\\') : write m [c] known = token m known c := by
  rw [write, fillFormat_cons _ hc, fillFormat, List.append_nil]

theorem token_t_iff (hfirst : firstYear ≤ m.wallTime.date.year) (hlast : m.wallTime.date.year ≤ lastYear) :
    token m known 't' = natural (monthLength m.wallTime.date.year m.wallTime.date.month) ↔
      ¬ (m.wallTime.date.year = lastYear ∧ m.wallTime.date.month = 12) := by
  rw [token_t hfirst hlast]
  split
  · next h =>
    have hdecember : natural (monthLength m.wallTime.date.year m.wallTime.date.month) = natural 31 := h.2 ▸ rfl
    exact iff_of_false (by rw [hdecember]; decide) (not_not_intro h)
  · next h => exact iff_of_true rfl h

theorem token_t_february (hfirst : firstYear ≤ m.wallTime.date.year) (hlast : m.wallTime.date.year ≤ lastYear)
    (hmonth : m.wallTime.date.month = 2) :
    token m known 't' = "29".toList ↔ isLeap m.wallTime.date.year = true := by
  rw [token_t hfirst hlast, if_neg (by omega), hmonth, monthLength_two]
  cases isLeap m.wallTime.date.year <;> decide

/-- Formats show the lengths of months by the calendar, in every month of every year but the very last; there it is
30. Leap years are those with 29 days in February. Every date of these years is the date of some moment. -/
theorem write_monthLength_iff (m : Moment) (known : Option (Zone × Regime))
    (hfirst : firstYear ≤ m.wallTime.date.year) (hlast : m.wallTime.date.year ≤ lastYear) :
    let d := m.wallTime.date
    d.Valid ∧
    (∀ f g, isPending f = false →
      (write m (f ++ 't' :: g) known = write m f known ++ natural (monthLength d.year d.month) ++ write m g known ↔
        ¬ (d.year = lastYear ∧ d.month = 12)) ∧
      (d.year = lastYear → d.month = 12 →
        write m (f ++ 't' :: g) known = write m f known ++ "30".toList ++ write m g known) ∧
      write m (f ++ 'L' :: g) known = write m f known ++ (if isLeap d.year then ['1'] else ['0']) ++ write m g known) ∧
    (∀ (m' : Moment) (known' : Option (Zone × Regime)), m'.wallTime.date.year = d.year → m'.wallTime.date.month = 2 →
      (write m ['L'] known = ['1'] ↔ write m' ['t'] known' = "29".toList)) ∧
    ∀ d' : Date, d'.Valid → firstYear ≤ d'.year → d'.year ≤ lastYear →
      ∃ m' : Moment, Moment.inRange m'.seconds = true ∧ m'.wallTime.date = d' := by
  refine ⟨m.valid_wallTime, fun f g hf => ⟨?_, fun hyear hmonth => ?_, ?_⟩, fun m' known' hyear hmonth => ?_,
    fun d' h hfirst hlast => ?_⟩
  · rw [write_append_cons hf (by decide), List.append_left_inj, List.append_right_inj]
    exact token_t_iff hfirst hlast
  · rw [write_append_cons hf (by decide), token_t hfirst hlast, if_pos ⟨hyear, hmonth⟩]
  · rw [write_append_cons hf (by decide), token_L hfirst hlast]
  · rw [write_singleton (by decide), write_singleton (by decide), token_L hfirst hlast, ← hyear,
      token_t_february (hyear ▸ hfirst) (hyear ▸ hlast) hmonth]
    cases isLeap m'.wallTime.date.year <;> decide
  · obtain ⟨m', hrange, -, hdate⟩ := Moment.exists_wallTime h hfirst hlast
    exact ⟨m', hrange, hdate⟩

/-- The last day of all, and a leap year before year 0. -/
theorem write_lastMonth :
    let m : Moment := ⟨8210266790400, 0, 0⟩
    let early : Moment := ⟨-62277724800, 0, 0⟩
    let february : Moment := ⟨-62290771200, 0, 0⟩
    m.wallTime.date = ⟨lastYear, 12, 31⟩ ∧ monthLength lastYear 12 = 31 ∧ write m ['t'] none = "30".toList ∧
      early.wallTime.date = ⟨-4, 7, 1⟩ ∧ february.wallTime.date = ⟨-4, 2, 1⟩ ∧
      write early ['t'] none = "31".toList ∧ write early ['L'] none = ['1'] ∧
      write february ['t'] none = "29".toList := by
  intro m early february
  have hm : m.wallTime.date = ⟨lastYear, 12, 31⟩ := by decide +kernel
  have hearly : early.wallTime.date = ⟨-4, 7, 1⟩ := by decide +kernel
  have hfebruary : february.wallTime.date = ⟨-4, 2, 1⟩ := by decide +kernel
  obtain ⟨-, hlast, -⟩ := write_monthLength_iff m none (by rw [hm]; decide) (by rw [hm])
  obtain ⟨-, htokens, hleap, -⟩ := write_monthLength_iff early none (by rw [hearly]; decide) (by rw [hearly]; decide)
  have hyear : write early ['L'] none = ['1'] := by
    refine (htokens [] [] rfl).2.2.trans ?_
    rw [hearly]
    rfl
  refine ⟨hm, by decide, (hlast [] [] rfl).2.1 (congrArg Date.year hm) (congrArg Date.month hm), hearly, hfebruary, ?_,
    hyear, ?_⟩
  · refine ((htokens [] [] rfl).1.2 ?_).trans ?_
    · rw [hearly]
      decide
    · rw [hearly]
      rfl
  · refine (hleap february none ?_ ?_).1 hyear
    · rw [hearly, hfebruary]
    · rw [hfebruary]

end Stencil.Calendar

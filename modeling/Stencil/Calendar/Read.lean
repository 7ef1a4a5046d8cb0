import Stencil.Calendar.Zone
import Stencil.Text.Scanner

/-! # Reading dates

A date is a word such as `today`, a count of seconds behind `@`, the profile of ISO 8601 that the
internet uses, a date of electronic mail, or one of eleven numeric layouts, tried in this order. -/

namespace Stencil.Calendar
open Text

open Scanner

/-- `+hhmm` or `-hhmm`, with what `between` reads between hours and minutes, in seconds. -/
def clockOffset (signs : List (Char × Bool)) (between : Scanner Unit) : Scanner Int := do
  let some c ← peek? | failure
  let some negative := signs.lookup c | failure
  char c
  let hours ← two
  between
  let minutes ← two
  if 59 < minutes then failure
  let size : Int := (hours * 3600 + minutes * 60 : Nat)
  return if negative then -size else size

/-- No zone is a day away. -/
def offsetLimit : Int := 86400

def momentAt? (w : WallTime) (offset : Int) : Option Moment :=
  if -offsetLimit < offset ∧ offset < offsetLimit then Moment.ofWallTime? w offset else none

/-- A fraction of a second in nanoseconds; digits behind the ninth do not count. -/
def fraction : Scanner Nat := do
  let ds ← digits 1 none
  let ds := ds.take 9
  return Decimal.valueOf ds * Nat.pow 10 (9 - ds.length)

def internetOffset : Scanner Int := do
  match ← peek? with
  | some 'Z' => char 'Z'; return 0
  | some 'z' => char 'z'; return 0
  | _ => clockOffset [('+', false), ('-', true), ('\u2212', true)] (char ':')

/-- `2024-03-05T14:07:09.5+05:30`; a blank may stand for the `T`. -/
def internet : Scanner Moment := do
  let year ← number 4 (some 4)
  char '-'
  let month ← two
  char '-'
  let day ← two
  char 'T' <|> char 't' <|> char ' '
  let hour ← two
  char ':'
  let minute ← two
  char ':'
  let second ← two
  let nanos ← if (← peek?) = some '.' then do char '.'; fraction else pure 0
  let offset ← internetOffset
  let w ← WallTime.ofParts? year month day hour minute second nanos
  momentAt? w offset

/-! ### Dates of electronic mail -/

def weekdayWords : List String := ["mon", "tue", "wed", "thu", "fri", "sat", "sun"]

def monthWords : List String :=
  ["jan", "feb", "mar", "apr", "may", "jun", "jul", "aug", "sep", "oct", "nov", "dec"]

/-- The hours east of UTC for a zone that mail names by letters; a letter of its own says nothing. -/
def mailZone? (name : Text) : Option Int :=
  let name := String.ofList (lowerAscii name)
  if name ∈ ["gmt", "ut", "z"] then some 0
  else if name = "edt" then some (-4)
  else if name ∈ ["est", "cdt"] then some (-5)
  else if name ∈ ["cst", "mdt"] then some (-6)
  else if name ∈ ["mst", "pdt"] then some (-7)
  else if name = "pst" then some (-8)
  else if name.length = 1 ∧ name ≠ "j" then some 0
  else none

def mailOffset : Scanner Int := fun s =>
  match s.takeWhile Char.isAlpha with
  | [] => clockOffset [('+', false), ('-', true)] (pure ()) s
  | name => (mailZone? name).map fun hours => (hours * 3600, s.drop name.length)

/-- Reads inside comments, which nest `depth + 1` deep; a backslash takes the next character with it. -/
def commentRest? : (depth : Nat) → Text → Option Text
  | _, [] => none
  | depth, '\\' :: _ :: s => commentRest? depth s
  | depth, '(' :: s => commentRest? (depth + 1) s
  | 0, ')' :: s => some s
  | depth + 1, ')' :: s => commentRest? depth s
  | depth, _ :: s => commentRest? depth s

/-- Reads comments in parentheses, at most `fuel` of them, as far as they are complete. -/
def comments : (fuel : Nat) → Text → Text
  | 0, s => s
  | fuel + 1, s =>
    match trimStart isBlank s with
    | '(' :: rest => match commentRest? 0 rest with
      | some rest => comments fuel rest
      | none => s
    | _ => s

/-- Two digits name a year from 1950 to 2049, three count from 1900. -/
def mailYear (digits : Text) : Int :=
  let n := Decimal.valueOf digits
  if digits.length = 2 then (if n < 50 then n + 2000 else n + 1900 : Nat)
  else if digits.length = 3 then (n + 1900 : Nat)
  else n

/-- A weekday and its comma. -/
def mailWeekday : Scanner (Option Nat) := fun s =>
  match word weekdayWords s with
  | none => some (none, s)
  | some (w, s) => (char ',' s).map fun (_, s) => (some w, s)

/-- `:ss` behind a time, if it is there. -/
def mailSeconds : Scanner Nat := fun s =>
  match (do blanks; char ':' : Scanner Unit) s with
  | none => some (0, s)
  | some (_, s) => two s

/-- `Tue, 05 Mar 2024 14:07:09 +0100`; the weekday and the seconds may be missing. -/
def mail : Scanner Moment := do
  blanks
  let weekday ← mailWeekday
  blanks
  let day ← number 1 (some 2)
  blank
  let month ← word monthWords
  blank
  let year ← digits 2 none
  blank
  let hour ← two
  blanks
  char ':'
  blanks
  let minute ← two
  let second ← mailSeconds
  blank
  let offset ← mailOffset
  modify fun s => comments s.length s
  let w ← WallTime.ofParts? (mailYear year) (month + 1) day hour minute second 0
  if weekday.all (· == w.date.weekday) then momentAt? w offset else failure

/-! ### Numeric layouts -/

inductive LayoutItem where
  /-- A sign in front lets a year have any number of digits; otherwise it has four at most. -/
  | year
  | month | day | hour | minute | second
  /-- White space, or none. -/
  | gap
  | literal (c : Char)
  deriving DecidableEq, Repr

/-- The parts of a date as a layout finds them; a missing time is midnight. -/
structure Parts where
  year : Int := 0
  month : Nat := 0
  day : Nat := 0
  hour : Nat := 0
  minute : Nat := 0
  second : Nat := 0

def signedYear : Scanner Int := do
  match ← peek? with
  | some '-' => char '-'; return -(← number 1 none : Nat)
  | some '+' => char '+'; return (← number 1 none : Nat)
  | _ => return (← number 1 (some 4) : Nat)

/-- Reads one item; white space may stand before a number. -/
def LayoutItem.scan (p : Parts) : LayoutItem → Scanner Parts
  | year => do blanks; return { p with year := ← signedYear }
  | month => do blanks; return { p with month := ← number 1 (some 2) }
  | day => do blanks; return { p with day := ← number 1 (some 2) }
  | hour => do blanks; return { p with hour := ← number 1 (some 2) }
  | minute => do blanks; return { p with minute := ← number 1 (some 2) }
  | second => do blanks; return { p with second := ← number 1 (some 2) }
  | gap => do blanks; return p
  | literal c => do char c; return p

/-- Reads the items of a layout one after the other. -/
def scanLayout (items : List LayoutItem) : Scanner WallTime := do
  let p ← items.foldlM LayoutItem.scan {}
  WallTime.ofParts? p.year p.month p.day p.hour p.minute p.second 0

section Layouts
open LayoutItem

/-- Year, month and day with dashes; day, month and year with points; month, day and year with
slashes. -/
def dateLayouts : List (List LayoutItem) :=
  [[year, literal '-', month, literal '-', day], [day, literal '.', month, literal '.', year],
    [month, literal '/', day, literal '/', year]]

/-- Hours and minutes, with seconds or without. -/
def timeLayouts : List (List LayoutItem) :=
  [[hour, literal ':', minute, literal ':', second], [hour, literal ':', minute]]

/-- Dates with a time behind a gap, or behind a `T` if dashes are used; then dates alone. -/
def layouts : List (List LayoutItem) :=
  let withTime (date : List LayoutItem) (separator : LayoutItem) :=
    timeLayouts.map (date ++ [separator] ++ ·)
  (dateLayouts.take 1).flatMap (withTime · gap) ++ (dateLayouts.take 1).flatMap (withTime · (literal 'T')) ++
    (dateLayouts.drop 1).flatMap (withTime · gap) ++ dateLayouts

end Layouts

/-- The wall time in the first layout that reads all of a text. -/
def readLayouts? (s : Text) : Option WallTime := layouts.findSome? fun items => whole (scanLayout items) s

/-- The moment that a text names, without its zone the moment on the observer's clock. -/
def Observer.read? (o : Observer) (text : Text) : Option Moment :=
  let s := trim text
  let word := String.ofList (lowerAscii s)
  if s.isEmpty then none
  else if word = "now" then some (o.see o.now 0)
  else if word = "today" then o.midnight? 0
  else if word = "yesterday" then o.midnight? (-1)
  else if word = "tomorrow" then o.midnight? 1
  else match s with
    | '@' :: count => do
      let n ← Decimal.int64? (trim count)
      if Moment.inRange n.toInt then some ⟨n.toInt, 0, 0⟩ else none
    | s => whole internet s <|> whole mail s <|> (readLayouts? s).bind o.moment?

end Stencil.Calendar

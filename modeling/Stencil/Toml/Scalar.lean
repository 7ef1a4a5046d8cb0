import Stencil.Calendar.Date
import Stencil.Decimal.Notation
import Stencil.Toml.Lexis
import Stencil.Value.Basic

/-! # Numbers and dates of TOML

Digits may have single underscores between them. An integer has 64 bits, and a float may not grow to
plus infinity unless it is written as such. Dates and times become text in one form: `T` before the time,
nine places of a second at most, and no zeros behind them. -/

namespace Stencil.Toml
open Text Scanner Decimal

/-- Digits of a class without the underscores; `after` tells that a digit stands before. -/
def grouped (p : Char → Bool) (after : Bool) : Text → Option (Text × Text)
  | [] => if after then some ([], []) else none
  | c :: s =>
    if p c then (grouped p true s).map fun (t, rest) => (c :: t, rest)
    else if !after then none
    else if c == '_' then grouped p false s
    else some ([], c :: s)

/-- Digits, at least one. -/
def digitGroups (p : Char → Bool) : Scanner Text := grouped p false

/-- A sign; a plus is as good as none. -/
def optionalSign : Scanner Text := fun
  | '+' :: s => some ([], s)
  | '-' :: s => some (['-'], s)
  | s => some ([], s)

/-- An integer in another base behind its mark. -/
def based : Scanner Data := do
  char '0'
  let base ← (do char 'x'; pure 16) <|> (do char 'o'; pure 8) <|> (do char 'b'; pure 2)
  let digits ← digitGroups fun c => (hexDigit? c).any (· < base)
  (int64OfInt? (digits.foldl (fun n c => n * base + (hexDigit? c).getD 0) 0 : Nat)).map .int

/-- What stands before the point or the exponent: no zero leads other digits. -/
def wholePart : Scanner Text := do
  if ← next? (· == '0') then
    char '0'
    return ['0']
  else digitGroups Char.isDigit

/-- The exponent, with its mark. -/
def exponentPart : Scanner Text := do
  char 'e' <|> char 'E'
  let sign ← optionalSign
  return 'e' :: sign ++ (← digitGroups Char.isDigit)

def decimal : Scanner Data := do
  let sign ← optionalSign
  let whole ← wholePart
  let places ← if ← next? (· == '.') then do
      char '.'
      pure ('.' :: (← digitGroups Char.isDigit))
    else pure []
  let exponent ← if ← next? (fun c => c == 'e' || c == 'E') then exponentPart else pure []
  let written := sign ++ whole ++ places ++ exponent
  if places.isEmpty && exponent.isEmpty then (int64? written).map .int
  else
    let some x := float? written | failure
    if x.isInf && x > 0 then failure
    return .float x

/-- Infinity or the value that is no number. -/
def special : Scanner Data := do
  let sign ← optionalSign
  let name ← (do literal "inf".toList; pure "inf".toList) <|> (do literal "nan".toList; pure "nan".toList)
  return .float ((float? (sign ++ name)).getD 0)

def number : Scanner Data := special <|> (do if ← next? (· == '0') then based else failure) <|> decimal

def date : Scanner Text := do
  let year ← Scanner.number 4 (some 4)
  char '-'
  let month ← two
  char '-'
  let day ← two
  if (Calendar.Date.ofParts? year month day).isNone then failure
  return padded 4 year ++ '-' :: padded 2 month ++ '-' :: padded 2 day

/-- A fraction of a second to nine places, without zeros at its end. -/
def fraction : Scanner Text := do
  if ← next? (· == '.') then
    char '.'
    let places := trimEnd (· == '0') ((← digits 1 none).take 9)
    return if places.isEmpty then [] else '.' :: places
  else return []

def hourAndMinute : Scanner (Nat × Nat) := do
  let hour ← two
  char ':'
  let minute ← two
  if 23 < hour ∨ 59 < minute then failure
  return (hour, minute)

def time : Scanner Text := do
  let (hour, minute) ← hourAndMinute
  char ':'
  let second ← two
  if 60 < second then failure
  let places ← fraction
  return padded 2 hour ++ ':' :: padded 2 minute ++ ':' :: padded 2 second ++ places

/-- The offset of a time from UTC; none is written with a plus. -/
def offset : Scanner Text := do
  if ← next? (fun c => c == 'Z' || c == 'z') then
    char 'Z' <|> char 'z'
    return ['Z']
  let sign ← (do char '+'; pure '+') <|> (do char '-'; pure '-')
  let (hour, minute) ← hourAndMinute
  let sign := if hour = 0 ∧ minute = 0 then '+' else sign
  return sign :: padded 2 hour ++ ':' :: padded 2 minute

/-- The time behind a date. -/
def timeBehindDate : Scanner Text := do
  char 'T' <|> char 't' <|> char ' '
  let time ← time
  return 'T' :: time ++ (← maybe offset).getD []

def dateTime : Scanner Text :=
  (do let date ← date; return date ++ (← maybe timeBehindDate).getD []) <|> time

end Stencil.Toml

import Stencil.Value.Basic
import Stencil.Text.Space

/-! # Numbers in values

Two strengths of coercion. `float?` and `int?` take what is a number all through; `floatOf` and `intOf`
always answer, from the leading numeral of a string or with zero. -/

namespace Stencil.Value
open Text Decimal
variable {τ : Type}

/-- The characters of numerals. -/
def isNumeralChar (c : Char) : Bool :=
  c.isDigit || c == '.' || c == '+' || c == '-' || c == 'e' || c == 'E'

/-- A string that is a numeral from end to end, white space around it apart. -/
def numeral? (s : Text) : Option Float :=
  let t := trim s
  if t.any Char.isDigit && t.all isNumeralChar then Decimal.float? t else none

/-- The longest leading numeral of a string. -/
def leadingNumeral? (s : Text) : Option Float :=
  let t := (trimStart isBlank s).takeWhile isNumeralChar
  (List.range t.length).reverse.findSome? fun n => numeral? (t.take (n + 1))

/-- Whether a float has no fractional part. -/
def isIntegral (x : Float) : Bool := (x - (if x < 0 then x.ceil else x.floor)) == 0

/-- The integral floats up to here have neighbours one apart. -/
def exactBound : Float := 9000000000000000

/-- The number that a value is. -/
def float? : Value τ → Option Float
  | int n => some n.toFloat
  | float x => some x
  | str s => numeral? s
  | _ => none

def isNumeric (v : Value τ) : Bool := v.float?.isSome

/-- The integer that a value is; a float has to be integral and of moderate size. -/
def int? : Value τ → Option Int64
  | int n => some n
  | str s => int64? (trim s) <|> ((numeral? s).bind integral?)
  | float x => integral? x
  | _ => none
where
  integral? (x : Float) : Option Int64 :=
    if isIntegral x && x.abs < exactBound then some x.toInt64 else none

/-- The integer that a value counts as. -/
def intOf : Value τ → Int64
  | int n => n
  | float x => x.toInt64
  | bool b => if b then 1 else 0
  | str s => (int64? (trim s)).getD ((leadingNumeral? s).elim 0 Float.toInt64)
  | list items => if items.isEmpty then 0 else 1
  | dict entries => if entries.isEmpty then 0 else 1
  | null | template _ => 0

/-- The float that a value counts as. -/
def floatOf : Value τ → Float
  | float x => x
  | str s => (leadingNumeral? s).getD 0
  | v => v.intOf.toFloat

end Stencil.Value

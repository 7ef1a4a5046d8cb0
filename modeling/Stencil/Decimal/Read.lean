import Stencil.Decimal.Binary
import Stencil.Text.Basic

/-! # Reading numbers

Decimal numerals of integers and floats. `valueOf_toDigits` ties the value of digits to how they are
written. -/

namespace Stencil.Decimal
open Text

/-- The number that decimal digits stand for. -/
def valueOf (digits : Text) : Nat := Nat.ofDigitChars 10 digits 0

@[simp] theorem valueOf_toDigits (n : Nat) : valueOf (Nat.toDigits 10 n) = n :=
  Nat.ofDigitChars_toDigits (by decide) (by decide)

/-- Splits off one sign; the flag says whether it is the minus. -/
def splitSign : Text → Bool × Text
  | '-' :: s => (true, s)
  | '+' :: s => (false, s)
  | s => (false, s)

/-- Digits, at least one. -/
def digits? (s : Text) : Option Nat :=
  if s ≠ [] ∧ s.all Char.isDigit then some (valueOf s) else none

/-- A numeral with an optional sign. -/
def integer? (s : Text) : Option Int :=
  let (negative, rest) := splitSign s
  (digits? rest).map fun n => if negative then -(n : Int) else n

/-- The integers that fit 64 bits with a sign. -/
def int64OfInt? (n : Int) : Option Int64 :=
  if Int64.minValue.toInt ≤ n ∧ n ≤ Int64.maxValue.toInt then some (Int64.ofInt n) else none

/-- A numeral of the signed 64-bit range. -/
def int64? (s : Text) : Option Int64 := (integer? s).bind int64OfInt?

/-- A numeral below `2 ^ 64`, with an optional plus. -/
def index? (s : Text) : Option Nat := do
  let n ← digits? (match s with
    | '+' :: s => s
    | s => s)
  if n < Nat.pow 2 64 then some n else none

/-! ### Floats -/

/-- `digits * 10 ^ exponent` with a sign. -/
structure Numeral where
  negative : Bool
  digits : Nat
  exponent : Int
  deriving DecidableEq, Repr

/-- Beyond this many places before or after the point no float is finite, or is not zero. -/
def farPlace : Int := 400

/-- The nearest number under a rounding of ratios. -/
def Numeral.rounded (n : Numeral) (nearest : Nat → Nat → Float) : Float :=
  let place := (width n.digits : Int) + n.exponent
  let (up, down) := tenTo (if place < -farPlace ∨ farPlace < place then 0 else n.exponent)
  let size :=
    if n.digits = 0 ∨ place < -farPlace then nearest 0 1
    else if farPlace < place then nearest (Nat.pow 10 farPlace.toNat) 1
    else nearest (n.digits * up) down
  if n.negative then -size else size

/-- The exponent of a numeral: nothing, or `e` and an integer. -/
def exponent? : Text → Option Int
  | [] => some 0
  | c :: s => if c = 'e' ∨ c = 'E' then integer? s else none

/-- Reads digits around an optional point, at least one of them, and an optional exponent. -/
def Numeral.read? (s : Text) : Option Numeral := do
  let (negative, s) := splitSign s
  let whole := s.takeWhile Char.isDigit
  let rest := s.drop whole.length
  let (places, rest) := match rest with
    | '.' :: rest => (rest.takeWhile Char.isDigit, rest.dropWhile Char.isDigit)
    | rest => ([], rest)
  if whole.isEmpty && places.isEmpty then none else
  let exponent ← exponent? rest
  some ⟨negative, valueOf (whole ++ places), exponent - places.length⟩

/-- A numeral, or the name of an infinity or of the value that is no number, in any case. -/
def floatWith? (nearest : Nat → Nat → Float) (s : Text) : Option Float :=
  let (negative, word) := splitSign s
  let signed (x : Float) := if negative then -x else x
  let word := String.ofList (lowerAscii word)
  if word = "inf" ∨ word = "infinity" then some (signed (nearest (Nat.pow 10 farPlace.toNat) 1))
  else if word = "nan" then some (signed (0 / 0))
  else (Numeral.read? s).map (·.rounded nearest)

def float? : Text → Option Float := floatWith? nearest

def single? : Text → Option Float := floatWith? nearestSingle

end Stencil.Decimal

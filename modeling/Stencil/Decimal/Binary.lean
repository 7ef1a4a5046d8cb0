import Stencil.Decimal.Ratio

/-! # Binary floating point as exact numbers

`Shape.ofFloat` opens a float into sign, mantissa and exponent; `nearest` is the float that lies
nearest to a ratio. All arithmetic between the two is on natural numbers. -/

namespace Stencil.Decimal

/-- A finite float without its sign: `mantissa * 2 ^ exponent`. -/
structure Binary where
  mantissa : Nat
  exponent : Int
  deriving DecidableEq, Repr

def Binary.num (b : Binary) : Nat := b.mantissa * (twoTo b.exponent).1

def Binary.den (b : Binary) : Nat := (twoTo b.exponent).2

/-- What a float is. -/
inductive Shape where
  | nan
  | infinite (negative : Bool)
  | finite (negative : Bool) (size : Binary)
  deriving DecidableEq, Repr

def Shape.ofFloat (x : Float) : Shape :=
  let bits := x.toBits.toNat
  let negative := bits / Nat.pow 2 63 == 1
  let exponent : Nat := bits / Nat.pow 2 52 % 2048
  let fraction := bits % Nat.pow 2 52
  if exponent = 2047 then
    if fraction = 0 then .infinite negative else .nan
  else if exponent = 0 then .finite negative ⟨fraction, -1074⟩
  else .finite negative ⟨fraction + Nat.pow 2 52, (exponent : Int) - 1075⟩

/-- A binary format: the bits of its mantissa, the exponent of its last place for the smallest
numbers, and the number of its exponents. -/
structure Format where
  precision : Nat
  lowest : Int
  exponents : Nat

def Format.binary64 : Format := ⟨53, -1074, 2047⟩

def Format.binary32 : Format := ⟨24, -149, 255⟩

/-- The bits of the number of a format that lies nearest to `num / den`, an even mantissa winning a
tie. Beyond the greatest number stands infinity. -/
def Format.nearestBits (f : Format) (num den : Nat) : Nat :=
  if num = 0 then 0 else
  let estimate : Int := (Nat.log2 num : Int) - Nat.log2 den
  let (up, down) := twoTo estimate
  let top := if den * up ≤ num * down then estimate else estimate - 1
  let exponent := max (top - (f.precision - 1 : Nat)) f.lowest
  let (up, down) := twoTo exponent
  -- a mantissa that rounds up to a power of two carries into the exponent
  let bits := (exponent - f.lowest).toNat * Nat.pow 2 (f.precision - 1) + round .even (num * down) (den * up)
  min bits (f.exponents * Nat.pow 2 (f.precision - 1))

/-- The float nearest to `num / den`. -/
def nearest (num den : Nat) : Float :=
  Float.ofBits (Format.binary64.nearestBits num den).toUInt64

/-- The single-precision number nearest to `num / den`, as a float. -/
def nearestSingle (num den : Nat) : Float :=
  let bits := Format.binary32.nearestBits num den
  let exponent : Nat := bits / Nat.pow 2 23
  let fraction := bits % Nat.pow 2 23
  if exponent = 255 then nearest (Nat.pow 2 1024) 1
  else if exponent = 0 then nearest fraction (Nat.pow 2 149)
  else
    let (up, down) := twoTo ((exponent : Int) - 150)
    nearest ((fraction + Nat.pow 2 23) * up) down

end Stencil.Decimal

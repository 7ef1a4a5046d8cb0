import Stencil.Value.Basic

/-! # Numbers of JSON

A numeral without point and exponent is an integer if it fits 64 bits; any other becomes a float. Its
digits are collected up to a limit, and the result is scaled by powers of ten in floating point. -/

namespace Stencil.Json
open Text Decimal

/-- The significant digits of a numeral fit here. -/
def significandLimit : Nat := Nat.pow 2 64

/-- Exponents fit here. -/
def exponentLimit : Nat := Nat.pow 2 31

/-- The greatest power of ten that is a float. -/
def scaleStep : Nat := 308

/-- Takes digits into a number as long as it stays below the limit; the other digits remain. -/
def collect (acc : Nat) : Text → Nat × Text
  | [] => (acc, [])
  | c :: s =>
    let more := acc * 10 + (c.toNat - '0'.toNat)
    if more < significandLimit then collect more s else (acc, c :: s)

/-- `size / 10 ^ k`, in as many steps as powers of ten need that are floats; zero stops it. -/
def scaleDown (size : Float) (k : Nat) : Float :=
  if k ≤ scaleStep then size / nearest (Nat.pow 10 k) 1
  else if size == 0 then size
  else scaleDown (size / nearest (Nat.pow 10 scaleStep) 1) (k - scaleStep)
termination_by k
decreasing_by simp [scaleStep] at *; omega

/-- `significand * 10 ^ exponent`, if it is finite. -/
def scaled? (significand : Nat) (exponent : Int) : Option Float :=
  let size := nearest significand 1
  if exponent < 0 then some (scaleDown size exponent.natAbs)
  else if exponent.toNat ≤ scaleStep then
    let scaled := size * nearest (Nat.pow 10 exponent.toNat) 1
    if scaled.isInf then none else some scaled
  else if size == 0 then some size else none

/-- The digits behind a point, at least one, and what follows. -/
def places? (s : Text) : Option (Text × Text) :=
  let digits := s.takeWhile Char.isDigit
  if digits.isEmpty then none else some (digits, s.drop digits.length)

/-- The exponent behind its mark: whether it is negative, its size, and what follows. -/
def exponent? (s : Text) : Option ((Bool × Nat) × Text) := do
  let (negative, s) := splitSign s
  let (digits, rest) ← places? s
  some ((negative, valueOf digits), rest)

/-- The size of a float from the digits before and after the point and the exponent. -/
def size? (whole places : Text) (exponent : Bool × Nat) : Option Float :=
  let (head, beyond) := collect 0 whole
  let (significand, ignored) := collect head places
  let point : Int := (beyond.length : Int) - (places.length - ignored.length : Nat)
  let (negative, size) := exponent
  if size < exponentLimit then
    scaled? significand (if negative then point - size else point + size)
  else if significand = 0 ∨ negative then some 0
  else none

/-- The value of a numeral that is only digits. Minus zero is a float. -/
def ofDigits? (negative : Bool) (whole : Text) : Option Data :=
  let n := valueOf whole
  if negative then
    match int64OfInt? (-n) with
    | some m => if m = 0 then some (.float (-0)) else some (.int m)
    | none => (size? whole [] (false, 0)).map fun x => .float (-x)
  else match int64OfInt? n with
    | some m => some (.int m)
    | none => (size? whole [] (false, 0)).map .float

/-- Reads a numeral. A leading zero stands alone. -/
def number? (s : Text) : Option (Data × Text) := do
  let (negative, s) := match s with
    | '-' :: s => (true, s)
    | s => (false, s)
  let (whole, rest) ← places? s
  if whole.head? = some '0' ∧ whole ≠ ['0'] then none else
  let signed (x : Float) : Data := .float (if negative then -x else x)
  let finish (places : Text) : Text → Option (Data × Text)
    | c :: rest =>
      if c = 'e' ∨ c = 'E' then do
        let (exponent, rest) ← exponent? rest
        let x ← size? whole places exponent
        some (signed x, rest)
      else if places.isEmpty then (ofDigits? negative whole).map (·, c :: rest)
      else (size? whole places (false, 0)).map (signed ·, c :: rest)
    | [] =>
      if places.isEmpty then (ofDigits? negative whole).map (·, [])
      else (size? whole places (false, 0)).map (signed ·, [])
  match rest with
  | '.' :: rest => do
    let (places, rest) ← places? rest
    finish places rest
  | rest => finish [] rest

end Stencil.Json

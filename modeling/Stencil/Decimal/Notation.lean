import Stencil.Decimal.Shortest

/-! # Decimal notation of floats

Three ways to write a finite float: its shortest digits under a `Style`, a fixed number of places, and
a mantissa with an exponent. The last two round the exact value, a tie going to the even digit. -/

namespace Stencil.Decimal
open Text

def natural (n : Nat) : Text := Nat.toDigits 10 n

def integer (n : Int) : Text := if n < 0 then '-' :: natural n.natAbs else natural n.natAbs

/-- The digits of `n`, with zeros in front up to `count`. -/
def padded (count n : Nat) : Text :=
  let digits := natural n
  List.replicate (count - digits.length) '0' ++ digits

/-- Digits with a point `places` digits before their end. -/
def pointed (places : Nat) (digits : Text) : Text :=
  if places = 0 then digits
  else digits.take (digits.length - places) ++ '.' :: digits.drop (digits.length - places)

/-- The sign of a float. -/
def sign (negative : Bool) : Text := if negative then ['-'] else []

structure Style where
  tie : Tie
  /-- Whether a number whose first digit has this exponent is written without an exponent. -/
  positional : Int → Bool
  /-- What follows an integral number. -/
  wholeMark : Text

/-- A positive decimal without an exponent. -/
def plain (wholeMark : Text) (d : Scaled) : Text :=
  if 0 ≤ d.exponent then natural d.digits ++ List.replicate d.exponent.toNat '0' ++ wholeMark
  else
    let places := (-d.exponent).toNat
    pointed places (padded (places + 1) d.digits)

/-- A positive decimal with one digit before the point and a signed exponent. -/
def scientific (d : Scaled) : Text :=
  let digits := natural d.digits
  let exponent := d.exponent + (digits.length - 1 : Nat)
  let mantissa := match digits with
    | first :: second :: more => first :: '.' :: second :: more
    | _ => digits
  mantissa ++ ['e'] ++ (if exponent < 0 then ['-'] else ['+']) ++ natural exponent.natAbs

def Style.magnitude (style : Style) (b : Binary) : Text :=
  if b.mantissa = 0 then '0' :: style.wholeMark else
  let d := b.shortest style.tie
  if style.positional (d.exponent + (width d.digits - 1 : Nat)) then plain style.wholeMark d
  else scientific d

/-- Exactly `places` digits after the point. -/
def fixed (places : Nat) (b : Binary) : Text :=
  pointed places (padded (places + 1) (round .even (b.num * Nat.pow 10 places) b.den))

/-- One digit before the point and `places` after it, and the exponent of the first digit. -/
def exponential (places : Nat) (b : Binary) : Text × Int :=
  if b.mantissa = 0 then (pointed places (padded (places + 1) 0), 0) else
  let exponent := magnitude b.num b.den
  let (up, down) := tenTo (exponent - places)
  let digits := round .even (b.num * down) (b.den * up)
  if digits = Nat.pow 10 (places + 1) then (pointed places (natural (Nat.pow 10 places)), exponent + 1)
  else (pointed places (natural digits), exponent)

end Stencil.Decimal

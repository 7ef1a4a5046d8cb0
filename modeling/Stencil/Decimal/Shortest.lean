import Stencil.Decimal.Binary
import Stencil.Text.Basic

/-! # The shortest decimal of a float

The fewest digits whose value still rounds to the float; among equally short ones the nearest. -/

namespace Stencil.Decimal

/-- `digits * 10 ^ exponent`. -/
structure Scaled where
  digits : Nat
  exponent : Int
  deriving DecidableEq, Repr

/-- In quarters of the last place, how far below and above a number the reals still round to it. Below
a power of two the neighbour is half as far away. -/
def Binary.reach (b : Binary) : Nat × Nat :=
  (if b.mantissa = Nat.pow 2 52 ∧ -1074 < b.exponent then 1 else 2, 2)

/-- Whether reading the decimal gives the float back. -/
def Binary.admits (b : Binary) (d : Scaled) : Bool :=
  let (up, down) := tenTo d.exponent
  let (quarterUp, quarterDown) := twoTo (b.exponent - 2)
  let value := d.digits * up * quarterDown
  let bound (quarters : Nat) := quarters * down * quarterUp
  let least := bound (4 * b.mantissa - b.reach.1)
  let most := bound (4 * b.mantissa + b.reach.2)
  if b.mantissa % 2 = 0 then least ≤ value && value ≤ most else least < value && value < most

/-- The better of the two decimals with `count` digits next to the number, if one reads back. -/
def Binary.candidate? (b : Binary) (tie : Tie) (count : Nat) : Option Scaled :=
  let exponent := magnitude b.num b.den - count + 1
  let (up, down) := tenTo exponent
  let num := b.num * down
  let den := b.den * up
  let closest : Scaled := ⟨round tie num den, exponent⟩
  let below : Scaled := ⟨num / den, exponent⟩
  let above : Scaled := ⟨num / den + 1, exponent⟩
  [closest, below, above].find? b.admits

/-- Seventeen digits always suffice. -/
def Binary.shortest (b : Binary) (tie : Tie) : Scaled :=
  let found := ((List.range 17).findSome? fun n => b.candidate? tie (n + 1)).getD ⟨0, 0⟩
  if found.digits % 10 = 0 then ⟨found.digits / 10, found.exponent + 1⟩ else found

end Stencil.Decimal

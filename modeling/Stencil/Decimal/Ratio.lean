/-! # Ratios of natural numbers on a grid

Rounding and magnitudes of `num / den` in exact arithmetic. Main statement: `two_mul_dist_round`, by
which `round` is off by half a unit at most. -/

namespace Stencil.Decimal

/-- Where a ratio goes that lies halfway between two integers. -/
inductive Tie where
  | even | up
  deriving DecidableEq, Repr

/-- The integer nearest to `num / den`. -/
def round (tie : Tie) (num den : Nat) : Nat :=
  let q := num / den
  let r := num % den
  if 2 * r < den then q
  else if den < 2 * r then q + 1
  else match tie with
    | .up => q + 1
    | .even => q + q % 2

/-- The rounded integer is off by half a unit at most. -/
theorem two_mul_dist_round (tie : Tie) (num : Nat) {den : Nat} (h : 0 < den) :
    2 * num ≤ (2 * round tie num den + 1) * den ∧ 2 * round tie num den * den ≤ 2 * num + den := by
  have hq := Nat.div_add_mod num den
  have hr := Nat.mod_lt num h
  unfold round
  generalize num / den = q at *
  generalize num % den = r at *
  have down : (2 * q + 1) * den = 2 * (den * q) + den ∧ 2 * q * den = 2 * (den * q) := by grind
  have up : (2 * (q + 1) + 1) * den = 2 * (den * q) + 3 * den ∧
      2 * (q + 1) * den = 2 * (den * q) + 2 * den := by grind
  dsimp only
  split
  · omega
  split
  · omega
  cases tie with
  | up => dsimp only; omega
  | even =>
    rcases Nat.mod_two_eq_zero_or_one q with hp | hp <;> simp only [hp, Nat.add_zero] <;> omega

/-- `10 ^ k` as a ratio. -/
def tenTo (k : Int) : Nat × Nat := (Nat.pow 10 k.toNat, Nat.pow 10 (-k).toNat)

/-- `2 ^ k` as a ratio. -/
def twoTo (k : Int) : Nat × Nat := (Nat.pow 2 k.toNat, Nat.pow 2 (-k).toNat)

/-- The number of decimal digits. -/
def width (n : Nat) : Nat := (Nat.toDigits 10 n).length

/-- The exponent of the first digit of a positive ratio: the greatest `k` with `10 ^ k ≤ num / den`. -/
def magnitude (num den : Nat) : Int :=
  let k : Int := (width num : Int) - width den
  let (up, down) := tenTo k
  if den * up ≤ num * down then k else k - 1

end Stencil.Decimal

import StructuralMatch.Number.Binary64

/-!
# `Number.Shortest` — the fewest decimal digits that read back

The reals that round to a given number form an interval, whose ends belong to it exactly when the
significand is even. A decimal in that interval reads back as the number. `Magnitude.shortest` looks for
one on ever finer grids, of one digit, two digits and so on: the only candidates on a grid are the two
neighbours of the number, the nearer one is taken, and of two equally near ones the larger.

## Contents

* `Decimal`, `Decimal.compareWith`, `Decimal.stripZeros`
* `Magnitude.readsBack`, membership in the interval
* `Magnitude.leadingPower`, `Magnitude.candidate?`, `Magnitude.shortest`
-/

namespace StructuralMatch

/-- The value `digits * 10 ^ exponent`. -/
structure Decimal where
  digits : Nat
  exponent : Int
deriving DecidableEq, Repr

namespace Decimal

/-- How a decimal compares with `n * 2 ^ power`. -/
def compareWith (d : Decimal) (n : Nat) (power : Int) : Ordering :=
  compare (d.digits * tenTo d.exponent.toNat * twoTo (-power).toNat)
    (n * twoTo power.toNat * tenTo (-d.exponent).toNat)

/-- Moves up to `count` trailing zeros of the digits into the exponent. -/
def stripZeros (d : Decimal) : Nat → Decimal
  | 0 => d
  | count + 1 =>
    if d.digits ≠ 0 ∧ d.digits % 10 = 0 then stripZeros ⟨d.digits / 10, d.exponent + 1⟩ count else d

end Decimal

namespace Binary64.Magnitude

/-- Whether a decimal lies among the reals that round to this value. -/
def readsBack (v : Magnitude) (d : Decimal) : Bool :=
  let closed := v.significand % 2 = 0
  let below := 4 * v.significand - (if v.narrowBelow then 1 else 2)
  let above := 4 * v.significand + 2
  let fromBelow := d.compareWith below (v.power - 2)
  let fromAbove := d.compareWith above (v.power - 2)
  (fromBelow = .gt || (closed && fromBelow = .eq)) && (fromAbove = .lt || (closed && fromAbove = .eq))

/-- The value as an exact decimal. -/
def exactDecimal (v : Magnitude) : Decimal :=
  if 0 ≤ v.power then ⟨v.significand * twoTo v.power.toNat, 0⟩
  else ⟨v.significand * fiveTo (-v.power).toNat, v.power⟩

/-- Whether the value is below `10 ^ power`. -/
def belowPowerOfTen (v : Magnitude) (power : Int) : Bool :=
  Decimal.compareWith ⟨1, power⟩ v.significand v.power = .gt

/-- Moves a power of ten up until the value is below it, by `steps` at most. -/
def raisePower (v : Magnitude) (power : Int) : Nat → Int
  | 0 => power
  | steps + 1 => if v.belowPowerOfTen power then power else v.raisePower (power + 1) steps

/-- The least power of ten above a value other than zero. Its binary logarithm times 0.30103 is off by
less than two, so that a few steps up from there are enough. -/
def leadingPower (v : Magnitude) : Int :=
  v.raisePower ((v.power + Nat.log2 v.significand) * 30103 / 100000 - 1) 5

/-- The decimal of `count` digits that reads back and is nearest to the value, given the least power of
ten above the value. -/
def candidate? (v : Magnitude) (leading : Int) (count : Nat) : Option Decimal :=
  let grid := leading - count
  let numerator := v.significand * twoTo v.power.toNat * tenTo (-grid).toNat
  let denominator := twoTo (-v.power).toNat * tenTo grid.toNat
  let floor := numerator / denominator
  let lower : Decimal := ⟨floor, grid⟩
  let upper : Decimal := ⟨floor + 1, grid⟩
  match v.readsBack lower, v.readsBack upper with
  | true, true => some (if 2 * numerator < (2 * floor + 1) * denominator then lower else upper)
  | true, false => some lower
  | false, true => some upper
  | false, false => none

/-- The decimal with the fewest digits that reads back as a value other than zero; of several, the
nearest one. Seventeen digits always suffice. -/
def shortest (v : Magnitude) : Decimal :=
  let leading := v.leadingPower
  let found := (List.range 17).findSome? fun count => v.candidate? leading (count + 1)
  (found.getD v.exactDecimal).stripZeros 17

end Binary64.Magnitude

end StructuralMatch

import StructuralMatch.Number.Power

/-!
# `Number.Binary64` — double precision numbers as bit patterns

A number is its 64 bits: one sign bit, eleven bits of biased exponent and 52 bits of fraction. Numbers
are compared as numbers (`sameNumber`) and as bit patterns (`=`), and the two differ for zeros and for
values that are not a number. Everything here is exact arithmetic on naturals.

## Contents

* `Binary64` and its fields `negative`, `biasedExponent`, `fraction`
* `isNaN`, `isInfinite`, `isZero`, `sameNumber`
* `Magnitude` and `magnitude`, the exact value without its sign
* `integer?`, the integer a number denotes, and `ofInt`, the number nearest to an integer
-/

namespace StructuralMatch

/-- A double precision number, as its bit pattern. -/
structure Binary64 where
  bits : UInt64
deriving DecidableEq, Repr, Inhabited

namespace Binary64

/-! ## Fields -/

/-- Whether the sign bit is set. -/
def negative (x : Binary64) : Bool := twoTo 63 ≤ x.bits.toNat

/-- The eleven exponent bits; all ones stand for the values that are not finite. -/
def biasedExponent (x : Binary64) : Nat := x.bits.toNat / twoTo 52 % twoTo 11

/-- The 52 bits below the exponent. -/
def fraction (x : Binary64) : Nat := x.bits.toNat % twoTo 52

/-- Whether the pattern is not a number. -/
def isNaN (x : Binary64) : Bool := x.biasedExponent = 2047 && x.fraction ≠ 0

/-- Whether the pattern is one of the two infinities. -/
def isInfinite (x : Binary64) : Bool := x.biasedExponent = 2047 && x.fraction = 0

/-- Whether the number is zero, of either sign. -/
def isZero (x : Binary64) : Bool := x.biasedExponent = 0 && x.fraction = 0

/-- Equality of numbers: both zeros are one number, and what is not a number equals nothing. -/
def sameNumber (x y : Binary64) : Bool :=
  !x.isNaN && !y.isNaN && (x = y || (x.isZero && y.isZero))

/-! ## Exact values -/

/-- The non-negative value `significand * 2 ^ power`. -/
structure Magnitude where
  significand : Nat
  power : Int
  /-- Whether the gap to the next smaller number is half the gap to the next larger one. -/
  narrowBelow : Bool
deriving DecidableEq, Repr

/-- The value of a finite number without its sign. -/
def magnitude (x : Binary64) : Magnitude :=
  if x.biasedExponent = 0 then ⟨x.fraction, -1074, false⟩
  else ⟨twoTo 52 + x.fraction, x.biasedExponent - 1075, x.fraction = 0 && x.biasedExponent ≠ 1⟩

/-- The natural that a magnitude is equal to, if there is one. -/
def Magnitude.natural? (v : Magnitude) : Option Nat :=
  if 0 ≤ v.power then some (v.significand * twoTo v.power.toNat)
  else if v.significand % twoTo (-v.power).toNat = 0 then
    some (v.significand / twoTo (-v.power).toNat)
  else none

/-- The integer that a number denotes, if it is finite and has no fractional part. -/
def integer? (x : Binary64) : Option Int :=
  if x.biasedExponent = 2047 then none
  else x.magnitude.natural?.map fun n => if x.negative then -(n : Int) else n

/-! ## Integers as numbers -/

/-- Divides by `2 ^ shift` and rounds to the nearest natural, a half to the even one. -/
def roundShift (n shift : Nat) : Nat :=
  let quotient := n / twoTo shift
  let twice := 2 * (n % twoTo shift)
  if twice < twoTo shift then quotient
  else if twoTo shift < twice then quotient + 1
  else if quotient % 2 = 0 then quotient else quotient + 1

/-- The bit pattern of the number nearest to a natural below `2 ^ 1023`. A significand that rounds up
to `2 ^ 53` carries into the exponent field, as it should. -/
def patternOfNat (n : Nat) : Nat :=
  if n = 0 then 0
  else
    let width := Nat.log2 n
    let significand := if width ≤ 52 then n * twoTo (52 - width) else roundShift n (width - 52)
    (width + 1022) * twoTo 52 + significand

/-- The number nearest to an integer, a half going to the even neighbour. -/
def ofInt (n : Int) : Binary64 :=
  let sign := if n < 0 then twoTo 63 else 0
  ⟨UInt64.ofNat (sign + patternOfNat n.natAbs)⟩

end Binary64

end StructuralMatch

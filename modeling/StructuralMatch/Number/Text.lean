import StructuralMatch.Number.Shortest

/-!
# `Number.Text` — numbers as decimal text

The digits come from `Number.Shortest`; this module lays them out. Where a `FloatLayout` says so the
point is written in place, elsewhere the first digit stands before the point and a power of ten after
the digits.

## Contents

* `FloatLayout`
* `Decimal.render`, `Binary64.render`
-/

namespace StructuralMatch

/-- The powers of ten of the leading digit for which a number is written without an exponent. -/
structure FloatLayout where
  plainFrom : Int
  plainBelow : Int
deriving DecidableEq, Repr

/-- A run of zeros. -/
def zeros (count : Nat) : List Char := List.replicate count '0'

/-- Digits with the point after the first `before` of them, padded with zeros on either side so that at
least one digit stands before and after the point. -/
def placePoint (digits : List Char) (before : Int) : List Char :=
  if before ≤ 0 then '0' :: '.' :: zeros (-before).toNat ++ digits
  else if digits.length ≤ before then
    digits ++ zeros (before.toNat - digits.length) ++ ['.', '0']
  else digits.take before.toNat ++ '.' :: digits.drop before.toNat

/-- Digits with the point after the first of them, if more follow, and the exponent behind. -/
def placeExponent (digits : List Char) (exponent : Int) : List Char :=
  let mantissa :=
    match digits with
    | first :: second :: rest => first :: '.' :: second :: rest
    | short => short
  mantissa ++ 'e' :: (toString exponent).toList

/-- Lays a decimal out. -/
def Decimal.render (layout : FloatLayout) (d : Decimal) : String :=
  let digits := Nat.toDigits 10 d.digits
  let leading := d.exponent + digits.length - 1
  String.ofList <|
    if layout.plainFrom ≤ leading ∧ leading < layout.plainBelow then
      placePoint digits (leading + 1)
    else placeExponent digits leading

/-- The text of a number: the fewest digits that read back, a sign where the sign bit is set, and words
for what is not finite. -/
def Binary64.render (layout : FloatLayout) (x : Binary64) : String :=
  if x.isNaN then "NaN"
  else
    let sign := if x.negative then "-" else ""
    if x.isInfinite then sign ++ "inf"
    else if x.isZero then sign ++ "0.0"
    else sign ++ x.magnitude.shortest.render layout

end StructuralMatch

/-!
# `Number.Digits` — naturals written in decimal digits

## Contents

* `areDigits`, `naturalOfDigits`
-/

namespace StructuralMatch

/-- Whether characters are decimal digits, at least one. -/
def areDigits (cs : List Char) : Bool := !cs.isEmpty && cs.all Char.isDigit

/-- The natural that decimal digits denote, the most significant one first. -/
def naturalOfDigits (digits : List Char) : Nat :=
  digits.foldl (fun value c => 10 * value + (c.toNat - '0'.toNat)) 0

end StructuralMatch

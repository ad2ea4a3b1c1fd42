/-!
# `Number.Power` — powers of the two bases of a number

## Contents

* `twoTo`, `fiveTo`, `tenTo`
-/

namespace StructuralMatch

/-- A power of two. -/
abbrev twoTo (exponent : Nat) : Nat := Nat.pow 2 exponent

/-- A power of five. -/
abbrev fiveTo (exponent : Nat) : Nat := Nat.pow 5 exponent

/-- A power of ten. -/
abbrev tenTo (exponent : Nat) : Nat := Nat.pow 10 exponent

end StructuralMatch

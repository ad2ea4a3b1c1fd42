import StructuralMatch.Pattern.Basic

/-!
# `Plan.Length` — choosing clauses by the length of a sequence

A sequence pattern without a star needs an exact length, one with a star at least so many elements.
A `LengthDispatch` lists, for the lengths that some clause of a lane needs exactly, every clause that
admits the length, and for the ranges between the star clauses' thresholds every star clause that admits
the range. Tables are looked up by halving.

## Contents

* `LengthConstraint`, `LengthConstraint.ofPattern?`, `LengthConstraint.admits`
* `halve`, the search in a sorted table
* `LengthDispatch`, `LengthDispatch.ofRows`, `LengthDispatch.candidates`
-/

namespace StructuralMatch

/-! ## Constraints -/

/-- What a sequence pattern needs of the length. -/
inductive LengthConstraint where
  | exact (length : Nat)
  | atLeast (length : Nat)
deriving DecidableEq, Repr

namespace LengthConstraint

/-- The need of a sequence pattern, unless its star lies outside the items. -/
def ofPattern? : Pattern → Option LengthConstraint
  | .sequence items none => some (.exact items.length)
  | .sequence items (some star) =>
    if star < items.length then some (.atLeast (items.length - 1)) else none
  | _ => none

/-- Whether a length meets the need. -/
def admits : LengthConstraint → Nat → Bool
  | .exact n, length => length = n
  | .atLeast n, length => n ≤ length

/-- The length that is needed exactly. -/
def exactLength? : LengthConstraint → Option Nat
  | .exact n => some n
  | .atLeast _ => none

/-- The least length, of a need that has no greatest one. -/
def threshold? : LengthConstraint → Option Nat
  | .exact _ => none
  | .atLeast n => some n

end LengthConstraint

/-! ## Sorted tables -/

/-- Inserts a number into a strictly increasing list that may hold it already. -/
def insertDistinct (n : Nat) : List Nat → List Nat
  | [] => [n]
  | m :: rest => if n < m then n :: m :: rest else if n = m then m :: rest else m :: insertDistinct n rest

/-- The distinct numbers of a list, strictly increasing. -/
def distinctSorted (numbers : List Nat) : List Nat := numbers.foldr insertDistinct []

/-- Halves a table until one entry is left. The upper half is kept unless its first entry lies beyond
what is looked for. Each of the given steps makes the table shorter. -/
def halve {α : Type} (beyond : α → Bool) (table : List α) : Nat → Option α
  | 0 => table.head?
  | steps + 1 =>
    if table.length ≤ 1 then table.head?
    else
      let half := table.length / 2
      match table.drop half with
      | [] => table.head?
      | middle :: upper =>
        if beyond middle then halve beyond (table.take (table.length - half)) steps
        else halve beyond (middle :: upper) steps

/-! ## Dispatch -/

/-- The clauses to try for each length. -/
structure LengthDispatch where
  /-- The lengths that some clause needs exactly, increasing, with all clauses that admit them. -/
  exact : List (Nat × List Nat)
  /-- The thresholds of the star clauses, increasing from zero, with the star clauses that admit them. -/
  atLeast : List (Nat × List Nat)
deriving DecidableEq, Repr, Inhabited

namespace LengthDispatch

/-- The clauses of the rows that pass a test, in row order. -/
def clausesWhere (rows : List (Nat × LengthConstraint)) (test : LengthConstraint → Bool) : List Nat :=
  (rows.filter fun row => test row.2).map (·.1)

/-- Whether a constraint is a threshold not above the length. -/
def reaches (length : Nat) (constraint : LengthConstraint) : Bool :=
  constraint.threshold?.any (· ≤ length)

/-- The table of some clauses with their constraints. -/
def ofRows (rows : List (Nat × LengthConstraint)) : LengthDispatch where
  exact := (distinctSorted (rows.filterMap (·.2.exactLength?))).map fun length =>
    (length, clausesWhere rows (·.admits length))
  atLeast := (distinctSorted (0 :: rows.filterMap (·.2.threshold?))).map fun threshold =>
    (threshold, clausesWhere rows (reaches threshold))

/-- The last entry that a search for a length does not pass. -/
def reached? (table : List (Nat × List Nat)) (length : Nat) : Option (Nat × List Nat) :=
  halve (fun entry => length < entry.1) table table.length

/-- The clauses to try for a length: those listed for exactly this length, or else those of the last
threshold that it reaches. -/
def candidates (dispatch : LengthDispatch) (length : Nat) : List Nat :=
  match (reached? dispatch.exact length).filter (·.1 = length) with
  | some entry => entry.2
  | none => ((reached? dispatch.atLeast length).filter (·.1 ≤ length)).elim [] (·.2)

end LengthDispatch

end StructuralMatch

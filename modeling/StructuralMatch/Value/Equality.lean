import StructuralMatch.Value.Basic

/-!
# `Value.Equality` — three ways for values to be equal

Identity tells allocations apart. Equality of the language compares numbers across their kinds, containers
by their items and objects by identity. Structural equality keeps the kinds of numbers apart and compares
objects by their contents.

## Contents

* `Value.identical`, `Value.looseEq`, `Value.structuralEq`
-/

namespace StructuralMatch.Value

/-- Whether two values are one: small values by what they are, the others by allocation. -/
def identical : Value → Value → Bool
  | .none, .none => true
  | .bool a, .bool b => a = b
  | .int m, .int n => m = n
  | .float x, .float y => x = y
  | .str a _, .str b _ => a = b
  | .list a _, .list b _ => a = b
  | .tuple a _, .tuple b _ => a = b
  | .dict a _, .dict b _ => a = b
  | .object a _ _ _, .object b _ _ _ => a = b
  | _, _ => false

/-- Equality of two values as numbers, where both are numbers. -/
def numberEq? (a b : Value) : Option Bool :=
  match a.asNumber?, b.asNumber? with
  | some x, some y => some (x.sameNumber y)
  | _, _ => Option.none

mutual
/-- Equality of the language. -/
def looseEq : Value → Value → Bool
  | .none, .none => true
  | .str _ s, .str _ t => s = t
  | .list _ xs, .list _ ys => looseEqItems xs ys
  | .tuple _ xs, .tuple _ ys => looseEqItems xs ys
  | .dict _ xs, .dict _ ys => xs.length = ys.length && looseWithin xs ys
  | .object a _ _ _, .object b _ _ _ => a = b
  | a, b => (numberEq? a b).getD false

/-- Equality of the language at every place of two lists. -/
def looseEqItems : List Value → List Value → Bool
  | [], [] => true
  | x :: xs, y :: ys => looseEq x y && looseEqItems xs ys
  | _, _ => false

/-- Whether each of some entries equals one of the others. -/
def looseWithin : List (Value × Value) → List (Value × Value) → Bool
  | [], _ => true
  | (key, value) :: rest, others =>
    (others.any fun other => looseEq key other.1 && looseEq value other.2) && looseWithin rest others
end

mutual
/-- Equality of structure. -/
def structuralEq : Value → Value → Bool
  | .none, .none => true
  | .bool a, .bool b => a = b
  | .int m, .int n => m = n
  | .float x, .float y => x.sameNumber y
  | .str _ s, .str _ t => s = t
  | .list _ xs, .list _ ys => structuralEqItems xs ys
  | .tuple _ xs, .tuple _ ys => structuralEqItems xs ys
  | .dict _ xs, .dict _ ys => structuralEqEntries xs ys
  | .object _ s xs ps, .object _ t ys qs =>
    s = t && structuralEqAttributes xs ys && structuralEqItems ps qs
  | _, _ => false

/-- Equality of structure at every place of two lists. -/
def structuralEqItems : List Value → List Value → Bool
  | [], [] => true
  | x :: xs, y :: ys => structuralEq x y && structuralEqItems xs ys
  | _, _ => false

/-- Equality of structure of the entries at every place. -/
def structuralEqEntries : List (Value × Value) → List (Value × Value) → Bool
  | [], [] => true
  | (k, v) :: xs, (l, w) :: ys => structuralEq k l && structuralEq v w && structuralEqEntries xs ys
  | _, _ => false

/-- Equality of the names and of the structure of the attributes at every place. -/
def structuralEqAttributes : List (Name × Value) → List (Name × Value) → Bool
  | [], [] => true
  | (m, v) :: xs, (n, w) :: ys => m = n && structuralEq v w && structuralEqAttributes xs ys
  | _, _ => false
end

end StructuralMatch.Value

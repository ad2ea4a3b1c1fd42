/-!
# `Handle` — references into the host's tables

The engine never looks inside a handle: it passes the number on to the host, which owns the table.

## Contents

* `TypeId`, `ExprRef`, `GuardRef`, `BodyRef`, each with the `label` that diagnostics print
-/

namespace StructuralMatch

/-- Identity of a host type. -/
structure TypeId where
  index : Nat
deriving DecidableEq, Repr, Inhabited

/-- How a diagnostic prints a type. -/
def TypeId.label (type : TypeId) : String := s!"TypeId({type.index})"

/-- A value expression that the host evaluates: a value pattern, a computed key or a subject. -/
structure ExprRef where
  index : Nat
deriving DecidableEq, Repr, Inhabited

/-- How a diagnostic prints an expression. -/
def ExprRef.label (expr : ExprRef) : String := s!"ExprRef({expr.index})"

/-- A condition that the host evaluates under the bindings of a clause. -/
structure GuardRef where
  index : Nat
deriving DecidableEq, Repr, Inhabited

/-- How a diagnostic prints a guard. -/
def GuardRef.label (guard : GuardRef) : String := s!"GuardRef({guard.index})"

/-- The body of a clause, handed back to the caller on a match and never run here. -/
structure BodyRef where
  index : Nat
deriving DecidableEq, Repr, Inhabited

end StructuralMatch

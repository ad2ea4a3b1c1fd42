import StructuralMatch.Plan.Length
import StructuralMatch.Plan.KeyTree

/-!
# `Plan.Basic` — an order of evaluation for a statement

The steps of a plan cover the clauses from left to right. A lane stands for a run of clauses that all
need a sequence, or all need a mapping: it looks at the subject once and leaves out the clauses that
cannot match it.

## Contents

* `PlanStep`, `PlanStep.laned`
* `Plan`, `Plan.lanedClauses`
-/

namespace StructuralMatch

/-- A step of a plan. -/
inductive PlanStep where
  /-- Try one clause. -/
  | clause (index : Nat)
  /-- Try the clauses that admit the length of the subject. -/
  | sequenceLane (clauses : List Nat) (dispatch : LengthDispatch)
  /-- Try the clauses whose keys the subject has. -/
  | mappingLane (clauses : List Nat) (tree : KeyTree)
deriving DecidableEq, Repr, Inhabited

/-- The clauses that a step keeps in a lane. -/
def PlanStep.laned : PlanStep → List Nat
  | .clause _ => []
  | .sequenceLane clauses _ => clauses
  | .mappingLane clauses _ => clauses

/-- The steps in which a statement is evaluated. -/
structure Plan where
  steps : List PlanStep
deriving DecidableEq, Repr, Inhabited

/-- The number of clauses that a plan keeps in lanes. -/
def Plan.lanedClauses (plan : Plan) : Nat := (plan.steps.flatMap PlanStep.laned).length

end StructuralMatch

import StructuralMatch.Pattern.Problem
import StructuralMatch.Plan.Basic

/-!
# `Plan.Compile` — from statements to plans

Every clause has a role: it is tried alone, or it may join a lane. Neighbours of one role form a run. A
run of sequence clauses is one lane; a run of mapping clauses is cut where the distinct key tests of a
lane would exceed a budget. What is shorter than the least length of a lane is tried clause by clause.

## Contents

* `LaneLimits`
* `LaneRole` and `Clause.laneRole`
* `LaneRun`, `LaneRun.ofRoles`, `cutByBudget`, `LaneRun.steps`
* `Statement.compile`
-/

namespace StructuralMatch

/-- The limits on lanes. -/
structure LaneLimits where
  /-- The fewest clauses that are worth a lane. -/
  minLaneLength : Nat := 2
  /-- The most distinct key tests of a mapping lane, unless it has one clause. -/
  maxKeyTests : Nat := 8
deriving DecidableEq, Repr, Inhabited

/-! ## Roles and runs -/

/-- The kind of lane that a clause may join. -/
inductive LaneRole where
  | alone
  | sequence (constraint : LengthConstraint)
  | mapping (tests : List KeyTest)
deriving DecidableEq, Repr

/-- A clause with a structural problem stays alone; the others go by the pattern. -/
def Clause.laneRole (clause : Clause) : LaneRole :=
  if clause.structuralProblems.isEmpty then
    match LengthConstraint.ofPattern? clause.pattern, clause.pattern.keyTests? with
    | some constraint, _ => .sequence constraint
    | none, some tests => .mapping tests
    | none, none => .alone
  else .alone

/-- Neighbouring clauses of one role, each with its index. -/
inductive LaneRun where
  | alone (index : Nat)
  | sequence (rows : List (Nat × LengthConstraint))
  | mapping (rows : List (Nat × List KeyTest))
deriving DecidableEq, Repr

namespace LaneRun

/-- Puts a clause in front of the runs of the clauses behind it. -/
def cons (index : Nat) : LaneRole → List LaneRun → List LaneRun
  | .sequence constraint, .sequence rows :: runs => .sequence ((index, constraint) :: rows) :: runs
  | .sequence constraint, runs => .sequence [(index, constraint)] :: runs
  | .mapping tests, .mapping rows :: runs => .mapping ((index, tests) :: rows) :: runs
  | .mapping tests, runs => .mapping [(index, tests)] :: runs
  | .alone, runs => .alone index :: runs

/-- The runs of clauses with given roles, the first of which has the given index. -/
def ofRoles (index : Nat) : List LaneRole → List LaneRun
  | [] => []
  | role :: roles => cons index role (ofRoles (index + 1) roles)

end LaneRun

/-! ## Lanes -/

/-- Adds the members of a list that are not in a set of tests yet. -/
def addTests (known : List KeyTest) : List KeyTest → List KeyTest
  | [] => known
  | test :: tests => if test ∈ known then addTests known tests else addTests (test :: known) tests

/-- Cuts rows into chunks from left to right: before a row whose tests would bring those of the chunk
above the budget. A chunk takes its first row whatever its tests. -/
def cutByBudget (budget : Nat) (chunk : List (Nat × List KeyTest)) (known : List KeyTest) :
    List (Nat × List KeyTest) → List (List (Nat × List KeyTest))
  | [] => if chunk.isEmpty then [] else [chunk]
  | row :: rows =>
    let added := row.2.countP (· ∉ known)
    if !chunk.isEmpty && budget < known.length + added then
      chunk :: cutByBudget budget [row] (addTests [] row.2) rows
    else cutByBudget budget (chunk ++ [row]) (addTests known row.2) rows

/-- The steps of clauses that are tried one by one. -/
def singleSteps {α : Type} (rows : List (Nat × α)) : List PlanStep :=
  rows.map fun row => .clause row.1

/-- The steps of a chunk of mapping clauses. -/
def mappingSteps (limits : LaneLimits) (rows : List (Nat × List KeyTest)) : List PlanStep :=
  if rows.length < limits.minLaneLength then singleSteps rows
  else [.mappingLane (rows.map (·.1)) (.ofRows rows)]

/-- The steps of a run. -/
def LaneRun.steps (limits : LaneLimits) : LaneRun → List PlanStep
  | .alone index => [.clause index]
  | .sequence rows =>
    if rows.length < limits.minLaneLength then singleSteps rows
    else [.sequenceLane (rows.map (·.1)) (.ofRows rows)]
  | .mapping rows => (cutByBudget limits.maxKeyTests [] [] rows).flatMap (mappingSteps limits)

/-- The plan of a statement. -/
def Statement.compile (statement : Statement) (limits : LaneLimits) : Plan :=
  ⟨(LaneRun.ofRoles 0 (statement.clauses.map (·.laneRole))).flatMap (·.steps limits)⟩

end StructuralMatch

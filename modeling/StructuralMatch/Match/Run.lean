import StructuralMatch.Match.Pattern
import StructuralMatch.Plan.Basic

/-!
# `Match.Run` — evaluating a statement on a subject

A statement is evaluated by trying some of its clauses in order; the first whose pattern matches and whose
guard holds wins. `runInOrder` tries them all. `runPlan` follows a plan, which leaves out clauses that the
length or the keys of the subject rule out already.

## Contents

* `Outcome`
* `tryClause`, `tryEach`
* `runInOrder`, `runPlan`
-/

namespace StructuralMatch

/-- The result of an evaluation. -/
inductive Outcome where
  /-- A clause won, with the bindings that its pattern made. -/
  | matched (clause : Nat) (body : BodyRef) (bindings : Bindings Value)
  | noMatch
deriving Repr, Inhabited

namespace Outcome

/-- The value that the winning clause bound to a name. -/
def binding? (name : Name) : Outcome → Option Value
  | .matched _ _ bindings => bindings.get? name
  | .noMatch => none

end Outcome

namespace Matcher

/-- Evaluates the guard of a clause under the current bindings; without one the clause passes. -/
def checkGuard (guard : Option GuardRef) : MatchM Bool := do
  match guard with
  | none => return true
  | some guard => askHost (.guard guard (← get).bindings)

/-- Tries one clause, starting without bindings. A rejected guard drops the bindings of the pattern. An
index that no clause has is passed over. -/
def tryClause (statement : Statement) (subject : Value) (index : Nat) : MatchM (Option Outcome) := do
  match statement.clauses[index]? with
  | none => return none
  | some clause =>
    resetBindings
    if !(← matchPattern clause.pattern subject .root) then return none
    if !(← checkGuard clause.guard) then
      resetBindings
      return none
    return some (.matched index clause.body (← takeBindings))

/-- Tries clauses in order until one wins. -/
def tryEach (statement : Statement) (subject : Value) : List Nat → MatchM (Option Outcome)
  | [] => return none
  | index :: rest => do
    match ← tryClause statement subject index with
    | some outcome => return some outcome
    | none => tryEach statement subject rest

/-- Evaluates a statement by trying every clause. -/
def runInOrder (statement : Statement) (subject : Value) : MatchM Outcome := do
  return (← tryEach statement subject (List.range statement.clauses.length)).getD .noMatch

/-- The clauses that a step of a plan leaves to be tried. A lane looks at the subject only if the subject
has the shape that the lane needs. -/
def stepCandidates (subject : Value) : PlanStep → MatchM (List Nat)
  | .clause index => return [index]
  | .sequenceLane _ dispatch => do
    if (← kindOf subject).isSequence then
      return dispatch.candidates (← observe (.elements .root subject)).length
    else return []
  | .mappingLane _ tree => do
    if (← kindOf subject).isMapping then
      let view ← observe (.mapping .root subject)
      return tree.candidates (·.holds view)
    else return []

/-- Takes the steps of a plan in order until a clause wins. -/
def runSteps (statement : Statement) (subject : Value) : List PlanStep → MatchM (Option Outcome)
  | [] => return none
  | step :: rest => do
    match ← tryEach statement subject (← stepCandidates subject step) with
    | some outcome => return some outcome
    | none => runSteps statement subject rest

/-- Evaluates a statement by a plan. -/
def runPlan (statement : Statement) (plan : Plan) (subject : Value) : MatchM Outcome := do
  return (← runSteps statement subject plan.steps).getD .noMatch

end Matcher

end StructuralMatch

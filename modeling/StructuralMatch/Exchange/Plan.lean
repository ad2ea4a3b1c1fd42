import StructuralMatch.Exchange.Pattern
import StructuralMatch.Plan.Basic

/-!
# `Exchange.Plan` — plans as JSON text

Plans are written by the rules of patterns. The rows of a dispatch table are arrays of a length and its
clauses.

## Contents

* `MapKey.ofJson?`, `KeyTest.ofJson?`, `KeyTree.ofJson?`, `LengthDispatch.ofJson?`, `PlanStep.ofJson?`
* `Plan.ofText?`
* `Plan.toText`
-/

namespace StructuralMatch

open Exchange

/-! ## Reading -/

/-- The hash identity that a value stands for. -/
def MapKey.ofJson? : Nat → Json → Option MapKey
  | _, .string (some "None") => some .none
  | _ + 1, .object [(some "None", .null)] => some .none
  | _ + 1, .object [(some "Int", content)] => content.word?.map .int
  | _ + 1, .object [(some "Float", content)] => content.size?.map fun bits => .float ⟨UInt64.ofNat bits⟩
  | _ + 1, .object [(some "Str", content)] => content.handle?.map fun index => .str ⟨index⟩
  | _ + 1, .object [(some "Opaque", content)] => content.size?.map .digest
  | _, _ => Option.none

/-- The test that a value stands for. -/
def KeyTest.ofJson? : Nat → Json → Option KeyTest
  | depth + 1, .object [(some "HasKey", content)] => (MapKey.ofJson? depth content).map .hasKey
  | _ + 1, .object [(some "LenEq", content)] => content.size?.map .sizeIs
  | _, _ => none

/-- The decision tree that a value stands for. -/
def KeyTree.ofJson? : Nat → Json → Option KeyTree
  | _, .string (some "Exhausted") => some .exhausted
  | _ + 1, .object [(some "Exhausted", .null)] => some .exhausted
  | depth + 2, .object [(some "Test", content)] => do
    let [some test, some pass, some fail] ← content.fields? ["test", "pass", "fail"] | none
    let test ← KeyTest.ofJson? depth test
    return .ask test (← KeyTree.ofJson? depth pass) (← KeyTree.ofJson? depth fail)
  | depth + 2, .object [(some "Candidate", content)] => do
    let [some clause, some next] ← content.fields? ["clause", "next"] | none
    return .candidate (← clause.size?) (← KeyTree.ofJson? depth next)
  | _, _ => none

/-- The clauses that a value lists. -/
def clausesOfJson? : Json → Option (List Nat) := Json.items? Json.size?

/-- The row of a dispatch table that a value stands for. -/
def LengthDispatch.rowOfJson? : Json → Option (Nat × List Nat)
  | .array [length, clauses] => do return (← length.size?, ← clausesOfJson? clauses)
  | _ => none

/-- The dispatch tables that a value stands for. -/
def LengthDispatch.ofJson? (json : Json) : Option LengthDispatch := do
  let [some exact, some atLeast] ← json.fields? ["exact", "at_least"] | none
  let exact ← exact.items? rowOfJson?
  return { exact, atLeast := ← atLeast.items? rowOfJson? }

/-- The step that a value stands for. Four containers stand around the tree of a step: the plan, the list
of steps, the step and the lane. -/
def PlanStep.ofJson? : Json → Option PlanStep
  | .object [(some "Clause", content)] => content.size?.map .clause
  | .object [(some "Sequence", content)] => do
    let [some clauses, some dispatch] ← content.fields? ["clauses", "dispatch"] | none
    return .sequenceLane (← clausesOfJson? clauses) (← LengthDispatch.ofJson? dispatch)
  | .object [(some "Mapping", content)] => do
    let [some clauses, some tree] ← content.fields? ["clauses", "tree"] | none
    return .mappingLane (← clausesOfJson? clauses) (← KeyTree.ofJson? (nestingLimit - 4) tree)
  | _ => none

/-- The plan that a text stands for. -/
def Plan.ofText? (text : String) : Option Plan := do
  let [some steps] ← (← Json.ofText? text).fields? ["steps"] | none
  return { steps := ← steps.items? PlanStep.ofJson? }

/-! ## Writing -/

open Compact

/-- The text of a hash identity. The identity of a text, a tuple or an object has no number to exchange:
it is written as a bare word, which no reader takes. -/
def MapKey.toText : MapKey → String
  | .none => word "None"
  | .int n => variant "Int" (toString n)
  | .float x => variant "Float" (number x.bits.toNat)
  | .str name => variant "Str" (number name.index)
  | .digest code => variant "Opaque" (number code)
  | .text _ | .tuple _ | .object _ => word "Opaque"

/-- The text of a test. -/
def KeyTest.toText : KeyTest → String
  | .hasKey key => variant "HasKey" key.toText
  | .sizeIs size => variant "LenEq" (number size)

/-- The text of a decision tree. -/
def KeyTree.toText : KeyTree → String
  | .ask question pass fail =>
    variant "Test" (record [("test", question.toText), ("pass", pass.toText), ("fail", fail.toText)])
  | .candidate clause next =>
    variant "Candidate" (record [("clause", number clause), ("next", next.toText)])
  | .exhausted => word "Exhausted"

/-- The text of a list of clauses. -/
def clausesText (clauses : List Nat) : String := list (clauses.map number)

/-- The text of a dispatch table. -/
def LengthDispatch.tableText (rows : List (Nat × List Nat)) : String :=
  list (rows.map fun row => list [number row.1, clausesText row.2])

/-- The text of a length dispatch. -/
def LengthDispatch.toText (dispatch : LengthDispatch) : String :=
  record [("exact", tableText dispatch.exact), ("at_least", tableText dispatch.atLeast)]

/-- The text of a step. -/
def PlanStep.toText : PlanStep → String
  | .clause index => variant "Clause" (number index)
  | .sequenceLane clauses dispatch =>
    variant "Sequence" (record [("clauses", clausesText clauses), ("dispatch", dispatch.toText)])
  | .mappingLane clauses tree =>
    variant "Mapping" (record [("clauses", clausesText clauses), ("tree", tree.toText)])

/-- The text of a plan. -/
def Plan.toText (plan : Plan) : String := record [("steps", list (plan.steps.map PlanStep.toText))]

end StructuralMatch

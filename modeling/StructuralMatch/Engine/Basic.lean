import StructuralMatch.Engine.Config
import StructuralMatch.Match.Run

/-!
# `Engine.Basic` — compiling statements once and evaluating them often

An engine carries settings and the kinds of types it has resolved. Nothing else lasts from one evaluation
to the next: each starts with an empty memory and without bindings.

## Contents

* `CompiledStatement`, `Engine.compile`
* `Engine`, `Engine.ofConfig`, `Engine.resolve`
* `Evaluation`, `Engine.run`, `Engine.matchValueWith`, `Engine.matchValue`, `Engine.execute`
-/

namespace StructuralMatch

/-- A statement with its problems and its plan. -/
structure CompiledStatement where
  statement : Statement
  problems : List Problem
  plan : Plan
deriving Repr, Inhabited

/-- Settings, and the kinds of types that are known. -/
structure Engine where
  config : EngineConfig
  kinds : KindCache
deriving Inhabited

/-- What an evaluation gives: its result, and the engine and the host after it. -/
structure Evaluation (α : Type) where
  result : Except MatchError α
  engine : Engine
  host : Host

namespace Engine

/-- An engine that knows no kinds. -/
def ofConfig (config : EngineConfig) : Engine := ⟨config, .empty⟩

/-- Finds the problems of a statement and makes its plan. -/
def compile (engine : Engine) (statement : Statement) : CompiledStatement where
  statement
  problems := statement.problems
  plan := statement.compile engine.config.lanes

/-- The kind of a type. -/
def resolve (engine : Engine) (types : Registry) (type : TypeId) : ResolvedKind × Engine :=
  let (resolved, kinds) := engine.kinds.resolve types type
  (resolved, { engine with kinds })

/-- Runs a computation on a matcher that has seen nothing. -/
def run {α : Type} (engine : Engine) (host : Host) (maxDepth : Option Nat)
    (computation : MatchM α) : Evaluation α :=
  match computation (.ofHost host engine.kinds maxDepth) with
  | .ok a matcher => ⟨.ok a, { engine with kinds := matcher.kinds }, matcher.host⟩
  | .error e matcher => ⟨.error e, { engine with kinds := matcher.kinds }, matcher.host⟩

/-- Evaluates a statement on a subject by a given strategy. -/
def matchValueWith (engine : Engine) (strategy : Strategy) (host : Host)
    (compiled : CompiledStatement) (subject : Value) : Evaluation Outcome :=
  engine.run host engine.config.maxDepth <|
    match strategy with
    | .inOrder => Matcher.runInOrder compiled.statement subject
    | .lanes => Matcher.runPlan compiled.statement compiled.plan subject

/-- Evaluates a statement on a subject by the engine's strategy. -/
def matchValue (engine : Engine) (host : Host) (compiled : CompiledStatement) (subject : Value) :
    Evaluation Outcome :=
  engine.matchValueWith engine.config.strategy host compiled subject

/-- Evaluates the subject of a statement and then the statement on it. -/
def execute (engine : Engine) (host : Host) (compiled : CompiledStatement) : Evaluation Outcome :=
  match (Question.value compiled.statement.subject).ask host with
  | .ok subject host => engine.matchValue host compiled subject
  | .error e host => ⟨.error (.host e), engine, host⟩

end Engine

end StructuralMatch

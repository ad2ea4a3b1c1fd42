import StructuralMatch.Number.Digits
import StructuralMatch.Plan.Compile
import StructuralMatch.Text.Blank

/-!
# `Engine.Config` — settings of the engine

Settings have defaults and can be given as texts of named variables. Blanks around a text do not count,
nor does the case of ASCII letters.

## Contents

* `Strategy`, `Strategy.word`, `Strategy.parse`
* `parseDepth`
* `EngineConfig`, `EngineConfig.ofVariables`
* `ConfigError` and its `message`
-/

namespace StructuralMatch

/-- How the clauses of a statement are gone through. -/
inductive Strategy where
  /-- Every clause in order. -/
  | inOrder
  /-- By the compiled plan. -/
  | lanes
deriving DecidableEq, Repr, Inhabited

/-- A text that is no setting; it is kept as it was given. -/
inductive ConfigError where
  | strategy (text : String)
  | depth (text : String)
deriving DecidableEq, Repr

/-- The wording of an error. -/
def ConfigError.message : ConfigError → String
  | .strategy text => s!"unknown match strategy `{text}` (expected `naive` or `lanes`)"
  | .depth text => s!"invalid depth limit `{text}`"

/-! ## Texts of settings -/

/-- The lower-case form of the ASCII letters of a text. -/
def lowerAscii (text : String) : String := text.map Char.toLower

namespace Strategy

/-- The word for a strategy. -/
def word : Strategy → String
  | .inOrder => "naive"
  | .lanes => "lanes"

/-- The strategy that a text names. -/
def parse (text : String) : Except ConfigError Strategy :=
  let name := lowerAscii (trimBlanks text)
  if name = "naive" then .ok .inOrder
  else if name = "lanes" || name = "optimized" then .ok .lanes
  else .error (.strategy text)

end Strategy

/-- The number of 64 bits that a text of decimal digits stands for; a plus may stand in front. -/
def parseWord? (text : String) : Option Nat :=
  let digits :=
    match text.toList with
    | '+' :: rest => rest
    | all => all
  if areDigits digits && naturalOfDigits digits < twoTo 64 then some (naturalOfDigits digits)
  else none

/-- The limit that a text stands for; zero and `none` stand for no limit. -/
def parseDepth (text : String) : Except ConfigError (Option Nat) :=
  let trimmed := trimBlanks text
  if lowerAscii trimmed = "none" then .ok none
  else
    match parseWord? trimmed with
    | some limit => .ok (if limit = 0 then none else some limit)
    | none => .error (.depth text)

/-! ## Settings -/

/-- The settings of an engine. -/
structure EngineConfig where
  strategy : Strategy := .lanes
  lanes : LaneLimits := {}
  /-- The deepest nesting of patterns that is allowed, if there is a limit; zero is none. -/
  maxDepth : Option Nat := none
deriving DecidableEq, Repr, Inhabited

namespace EngineConfig

/-- The variable of the strategy. -/
def strategyVariable : String := "CM_MATCH_STRATEGY"

/-- The variable of the depth limit. -/
def maxDepthVariable : String := "CM_MAX_DEPTH"

/-- The settings with another strategy. -/
def withStrategy (config : EngineConfig) (strategy : Strategy) : EngineConfig :=
  { config with strategy }

/-- The settings with another depth limit, where zero stands for none. -/
def withMaxDepth (config : EngineConfig) (limit : Nat) : EngineConfig :=
  { config with maxDepth := if limit = 0 then none else some limit }

/-- The default settings, changed by the variables that have a text. -/
def ofVariables (lookup : String → Option String) : Except ConfigError EngineConfig := do
  let strategy ← (lookup strategyVariable).mapM Strategy.parse
  let maxDepth ← (lookup maxDepthVariable).mapM parseDepth
  return { strategy := strategy.getD .lanes, maxDepth := maxDepth.getD none }

end EngineConfig

end StructuralMatch

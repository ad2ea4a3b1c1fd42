import StructuralMatch.Host.Basic

/-!
# `Match.Error` — why an evaluation is given up

A clause that does not match is no error: the next one is tried. An error ends the evaluation. Most of
them say that a class pattern disagrees with what the class declares; the host's own errors are passed
on.

## Contents

* `MatchError`
* `MatchError.message`, which prints names by number
* `MatchError.describe`, which prints names by their texts
-/

namespace StructuralMatch

/-- Why an evaluation was given up. -/
inductive MatchError where
  /-- A keyword is none of the attributes that the class declares. -/
  | unknownKeyword (name : Name) (type : TypeId)
  /-- A keyword stands for a component that a positional sub-pattern has already. -/
  | keywordRebindsPositional (name : Name) (index consumed : Nat)
  /-- A keyword stands for a component that the value does not have. -/
  | componentOutOfRange (name : Name) (index length : Nat)
  /-- There are more positional sub-patterns than attributes that the class declares. -/
  | tooManyPositional (type : TypeId) (declared given : Nat)
  /-- Two sub-patterns of a class pattern stand for one attribute. -/
  | keywordCollision (name : Name)
  /-- A computed key has no hash identity. -/
  | unhashableKey (expr : ExprRef)
  /-- A pattern is nested more deeply than is allowed. -/
  | depthLimit (limit : Nat)
  /-- The host could not answer. -/
  | host (error : HostError)
  /-- A part was taken from a list that is too short to have it. The checks before every such step make
  sure that no evaluation ends this way. -/
  | outOfRange (index length : Nat)
deriving DecidableEq, Repr

namespace MatchError

/-- The wording of an error, with names by number. -/
def message : MatchError → String
  | .unknownKeyword name type =>
    s!"keyword {name.label} is not among the declared attributes of {type.label}"
  | .keywordRebindsPositional name index consumed =>
    s!"keyword {name.label} resolves to slot {index}, already consumed by {consumed} " ++
      "positional sub-patterns"
  | .componentOutOfRange name index length =>
    s!"keyword {name.label} resolves to component {index}, but deconstruction produced {length}"
  | .tooManyPositional type declared given =>
    s!"{type.label} accepts {declared} positional sub-patterns ({given} given)"
  | .keywordCollision name => s!"attribute {name.label} is matched by more than one sub-pattern"
  | .unhashableKey expr => s!"mapping key computed by {expr.label} is unhashable"
  | .depthLimit limit => s!"pattern nesting exceeds the depth limit of {limit}"
  | .host error => error.message
  | .outOfRange index length => s!"position {index} is outside a list of {length}"

/-- The wording of an error, with names by their texts. -/
def describe (names : Interner) : MatchError → String
  | .unknownKeyword name type =>
    s!"keyword `{names.lookup name}` is not among the declared attributes of {type.label}"
  | .keywordRebindsPositional name index consumed =>
    s!"keyword `{names.lookup name}` resolves to slot {index}, already consumed by {consumed} " ++
      "positional sub-patterns"
  | .componentOutOfRange name index length =>
    s!"keyword `{names.lookup name}` resolves to component {index}, " ++
      s!"but deconstruction produced {length}"
  | .keywordCollision name =>
    s!"attribute `{names.lookup name}` is matched by more than one sub-pattern"
  | error => error.message

/-- Whether the error is one of the host's own. -/
def isHost : MatchError → Bool
  | .host _ => true
  | _ => false

end MatchError

end StructuralMatch

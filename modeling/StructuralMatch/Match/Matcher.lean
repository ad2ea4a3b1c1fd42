import StructuralMatch.Match.Error
import StructuralMatch.Match.KindCache
import StructuralMatch.Match.Scratch

/-!
# `Match.Matcher` — the state of one evaluation

A matcher observes the host, knows the kinds of types, and keeps the bindings made so far and the depth
of the pattern it is in. An error ends a computation but not the matcher: its state is kept.

## Contents

* `Matcher`, `Matcher.ofHost`, `MatchM`
* `observe`, `askHost`, `kindOf`, `newList`, `newDict`
* `bind`, `resetBindings`, `takeBindings`, `attempt`
* `descend`, which counts the depth of nesting
* `elementAt`, `cutAt`, access to lists that is checked
-/

namespace StructuralMatch

/-- The state of one evaluation. -/
structure Matcher extends Observer where
  kinds : KindCache
  bindings : Bindings Value
  /-- The number of patterns that enclose the current one. -/
  depth : Nat
  /-- The greatest number of patterns on a path through the pattern tree, if it is limited. -/
  maxDepth : Option Nat
deriving Inhabited

/-- A computation of a matcher. -/
abbrev MatchM := EStateM MatchError Matcher

/-- A matcher that has seen nothing. A limit of zero stands for none. -/
def Matcher.ofHost (host : Host) (kinds : KindCache) (maxDepth : Option Nat) : Matcher where
  host
  scratch := .empty
  kinds
  bindings := .empty
  depth := 0
  maxDepth := maxDepth.filter (0 < ·)

namespace Matcher

/-! ## Host and memory -/

/-- Looks at a part through the memory. -/
def observe {α : Type} (observation : ObserverM α) : MatchM α := fun matcher =>
  match observation matcher.toObserver with
  | .ok a observer => .ok a { matcher with toObserver := observer }
  | .error e observer => .error (.host e) { matcher with toObserver := observer }

/-- Asks the host, whatever it said before. -/
def askHost {α : Type} (question : Question α) : MatchM α := fun matcher =>
  match question.ask matcher.host with
  | .ok a host => .ok a { matcher with host }
  | .error e host => .error (.host e) { matcher with host }

/-- The kind of a value's type. -/
def kindOf (value : Value) : MatchM MatchKind := fun matcher =>
  let (resolved, kinds) := matcher.kinds.resolve matcher.host.types value.type
  .ok resolved.kind { matcher with kinds }

/-- A new list. -/
def newList (items : List Value) : MatchM Value := fun matcher =>
  let (value, host) := matcher.host.newList items
  .ok value { matcher with host }

/-- A new dict. -/
def newDict (entries : List (Value × Value)) : MatchM Value := fun matcher =>
  let (value, host) := matcher.host.newDict entries
  .ok value { matcher with host }

/-! ## Bindings -/

/-- Binds a name. -/
def bind (name : Name) (value : Value) : MatchM Unit :=
  modify fun matcher => { matcher with bindings := matcher.bindings.bind name value }

/-- Drops all bindings. -/
def resetBindings : MatchM Unit := modify fun matcher => { matcher with bindings := .empty }

/-- Hands the bindings over. -/
def takeBindings : MatchM (Bindings Value) := do
  let matcher ← get
  resetBindings
  return matcher.bindings

/-- Drops the bindings that a trial made, if it fails. -/
def attempt (trial : MatchM Bool) : MatchM Bool := do
  let mark := (← get).bindings.mark
  if ← trial then return true
  modify fun matcher => { matcher with bindings := matcher.bindings.truncate mark }
  return false

/-! ## Depth -/

/-- Whether another level of nesting is allowed. -/
def limitReached? (matcher : Matcher) : Option Nat :=
  matcher.maxDepth.filter (· ≤ matcher.depth)

/-- Runs a computation one level deeper and comes back to the level before, also after an error. -/
def descend (inner : MatchM Bool) : MatchM Bool := fun matcher =>
  match matcher.limitReached? with
  | some limit => .error (.depthLimit limit) matcher
  | none =>
    match inner { matcher with depth := matcher.depth + 1 } with
    | .ok result after => .ok result { after with depth := after.depth - 1 }
    | .error e after => .error e { after with depth := after.depth - 1 }

/-! ## Checked access -/

/-- The item at a position. -/
def elementAt {α : Type} (items : List α) (index : Nat) : MatchM α :=
  match items[index]? with
  | some item => return item
  | none => throw (.outOfRange index items.length)

/-- The items before a position and those from there on. -/
def cutAt {α : Type} (items : List α) (index : Nat) : MatchM (List α × List α) :=
  if index ≤ items.length then return (items.take index, items.drop index)
  else throw (.outOfRange index items.length)

end Matcher

end StructuralMatch

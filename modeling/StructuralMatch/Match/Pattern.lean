import StructuralMatch.Match.Target

/-!
# `Match.Pattern` — matching a pattern with a value

A match leaves its bindings behind the earlier ones. A pattern that fails may leave some as well: whoever
tries another one in its place drops them. Sub-patterns are tried from left to right and the first that
fails ends the trial.

## Contents

* `matchLiteral`, `matchValueRef`, `bindRest`
* `matchPattern` and, by mutual recursion, the lists of sub-patterns
-/

namespace StructuralMatch.Matcher

/-- Compares a value with a constant: a singleton by identity, anything else as the host does. -/
def matchLiteral (constant : Literal) (value : Value) : MatchM Bool := do
  let expected := (← get).host.literal constant
  if constant.isSingleton then return value.identical expected
  else askHost (.equals value expected)

/-- Compares a value with the current value of an expression. -/
def matchValueRef (expr : ExprRef) (value : Value) : MatchM Bool := do
  let expected ← askHost (.value expr)
  askHost (.equals value expected)

/-- Binds a new dict of the entries that are left, where there is a name for it. -/
def bindRest (rest : Option Name) (left : List (Value × Value)) : MatchM Unit :=
  match rest with
  | none => return ()
  | some name => do bind name (← newDict left)

mutual
/-- Matches a pattern with the value at a path. -/
def matchPattern : Pattern → Value → AccessPath → MatchM Bool
  | .wildcard, _, _ => descend (return true)
  | .capture name, value, _ => descend do
    bind name value
    return true
  | .literal constant, value, _ => descend (matchLiteral constant value)
  | .valueRef expr, value, _ => descend (matchValueRef expr value)
  | .sequence items star, value, path => descend do
    match ← sequenceTargets items.length star value path with
    | none => return false
    | some targets => matchItems items targets path
  | .mapping entries rest, value, path => descend do
    match ← mappingParts (entries.map (·.1)) rest value path with
    | none => return false
    | some (parts, left) =>
      if ← matchEntries entries parts path then
        bindRest rest left
        return true
      else return false
  | .ofClass type positional keywords, value, path => descend do
    if !(← askHost (.isInstance value type)) then return false
    if positional.isEmpty && keywords.isEmpty then return true
    match ← classTargets type positional.length (keywords.map (·.1)) value path with
    | .none => return false
    | .itself =>
      if ← matchItself positional value path then
        match ← attributeParts type 0 (keywords.map (·.1)) value path with
        | none => return false
        | some (_, parts) => matchKeywords keywords parts path
      else return false
    | .parts first second =>
      if ← matchItems positional (first.map .part) path then matchKeywords keywords second path
      else return false
  | .named inner name, value, path => descend do
    if ← matchPattern inner value path then
      bind name value
      return true
    else return false
  | .anyOf alternatives, value, path => descend (matchFirst alternatives value path)

/-- Matches a sole sub-pattern with the whole value. -/
def matchItself : List Pattern → Value → AccessPath → MatchM Bool
  | [pattern], value, path => matchPattern pattern value path
  | _, _, _ => return false

/-- Matches patterns with their targets on the value at a path. -/
def matchItems : List Pattern → List Target → AccessPath → MatchM Bool
  | [], _, _ => return true
  | _ :: _, [], _ => throw (.outOfRange 0 0)
  | pattern :: rest, .part part :: targets, path => do
    if ← matchPattern pattern part.value (path.push part.step) then matchItems rest targets path
    else return false
  | pattern :: rest, .slice start items :: targets, path => do
    if pattern.isWildcard then matchItems rest targets path
    else
      let value ← newList items
      if ← matchPattern pattern value (path.push (.slice start (start + items.length))) then
        matchItems rest targets path
      else return false

/-- Matches the patterns of entries with their parts of the value at a path. -/
def matchEntries : List (MappingKey × Pattern) → List Part → AccessPath → MatchM Bool
  | [], _, _ => return true
  | _ :: _, [], _ => throw (.outOfRange 0 0)
  | (_, pattern) :: rest, part :: parts, path => do
    if ← matchPattern pattern part.value (path.push part.step) then matchEntries rest parts path
    else return false

/-- Matches the patterns of keywords with their parts of the value at a path. -/
def matchKeywords : List (Name × Pattern) → List Part → AccessPath → MatchM Bool
  | [], _, _ => return true
  | _ :: _, [], _ => throw (.outOfRange 0 0)
  | (_, pattern) :: rest, part :: parts, path => do
    if ← matchPattern pattern part.value (path.push part.step) then matchKeywords rest parts path
    else return false

/-- Tries alternatives until one matches. One that fails leaves no bindings behind. -/
def matchFirst : List Pattern → Value → AccessPath → MatchM Bool
  | [], _, _ => return false
  | pattern :: rest, value, path => do
    if ← attempt (matchPattern pattern value path) then return true
    matchFirst rest value path
end

end StructuralMatch.Matcher

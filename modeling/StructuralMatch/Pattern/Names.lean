import StructuralMatch.Pattern.Basic

/-!
# `Pattern.Names` — what a pattern binds, and when it cannot fail

Both are read off the tree without any value at hand.

## Contents

* `Pattern.boundNames`, the names in the order of their binding
* `Pattern.isIrrefutable`
-/

namespace StructuralMatch.Pattern

mutual
/-- The names that a match binds, in binding order; of alternatives the first one speaks for all. -/
def boundNames : Pattern → List Name
  | .wildcard => []
  | .capture name => [name]
  | .literal _ => []
  | .valueRef _ => []
  | .sequence items _ => boundNamesEach items
  | .mapping entries rest => boundNamesEntries entries ++ rest.toList
  | .ofClass _ positional keywords => boundNamesEach positional ++ boundNamesKeywords keywords
  | .named pattern name => boundNames pattern ++ [name]
  | .anyOf [] => []
  | .anyOf (first :: _) => boundNames first

/-- The names that a list of patterns binds. -/
def boundNamesEach : List Pattern → List Name
  | [] => []
  | pattern :: rest => boundNames pattern ++ boundNamesEach rest

/-- The names that the entries of a mapping pattern bind. -/
def boundNamesEntries : List (MappingKey × Pattern) → List Name
  | [] => []
  | (_, pattern) :: rest => boundNames pattern ++ boundNamesEntries rest

/-- The names that keyword sub-patterns bind. -/
def boundNamesKeywords : List (Name × Pattern) → List Name
  | [] => []
  | (_, pattern) :: rest => boundNames pattern ++ boundNamesKeywords rest
end

mutual
/-- Whether a pattern matches every value. -/
def isIrrefutable : Pattern → Bool
  | .wildcard | .capture _ => true
  | .named pattern _ => isIrrefutable pattern
  | .anyOf alternatives => anyIrrefutable alternatives
  | _ => false

/-- Whether some pattern of a list matches every value. -/
def anyIrrefutable : List Pattern → Bool
  | [] => false
  | pattern :: rest => isIrrefutable pattern || anyIrrefutable rest
end

end StructuralMatch.Pattern

import StructuralMatch.Name

/-!
# `Match.Keywords` — which component a keyword stands for

A class that is taken apart into components may give them names. A keyword stands for the component at
the first position of its name, which must not be taken by a positional sub-pattern or by another
keyword.

## Contents

* `KeywordError`
* `resolveKeywords`
-/

namespace StructuralMatch

/-- Why a keyword stands for no component. -/
inductive KeywordError where
  | unknown (name : Name)
  | belowMinimum (name : Name) (index : Nat)
  | duplicate (name : Name)
deriving DecidableEq, Repr

/-- The positions of keywords, given the positions that earlier keywords have. -/
def resolveKeywordsFrom (declared : List Name) (minimum : Nat) (taken : List Nat) :
    List Name → Except KeywordError (List Nat)
  | [] => .ok []
  | name :: rest =>
    match declared.idxOf? name with
    | none => .error (.unknown name)
    | some index =>
      if index < minimum then .error (.belowMinimum name index)
      else if index ∈ taken then .error (.duplicate name)
      else (resolveKeywordsFrom declared minimum (index :: taken) rest).map (index :: ·)

/-- The first position of each keyword among the declared names. None may lie below the minimum and no
two may be one. -/
def resolveKeywords (names declared : List Name) (minimum : Nat) : Except KeywordError (List Nat) :=
  resolveKeywordsFrom declared minimum [] names

/-- The names, unless one of them occurs twice or among the names before them. -/
def distinctAfter (before : List Name) : List Name → Except Name (List Name)
  | [] => .ok []
  | name :: rest =>
    if name ∈ before then .error name
    else (distinctAfter (before ++ [name]) rest).map (name :: ·)

end StructuralMatch

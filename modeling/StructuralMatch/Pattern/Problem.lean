import StructuralMatch.Pattern.Names

/-!
# `Pattern.Problem` — malformed and unreachable clauses

`Statement.problems` reports what is wrong with the clauses of a statement. Such clauses still have a
meaning, but a plan keeps those with a structural problem apart.

## Contents

* `ProblemKind`, its `message` and `isStructural`
* `Pattern.problems`, what is wrong inside a pattern
* `Statement.problems`, ordered by clause
-/

namespace StructuralMatch

/-- What is wrong with a clause. -/
inductive ProblemKind where
  | duplicateKey (key : MapKey)
  | starOutOfRange (star length : Nat)
  | starNotCapture (star : Nat)
  | duplicateBinding (name : Name)
  | alternativesDiffer
  | unreachable (shadowedBy : Nat)
deriving DecidableEq, Repr

namespace ProblemKind

/-- The wording of a problem. -/
def message : ProblemKind → String
  | .duplicateKey key => s!"mapping pattern repeats key {key.label}"
  | .starOutOfRange star length =>
    s!"star index {star} is outside a sequence pattern of {length} items"
  | .starNotCapture star => s!"star sub-pattern at {star} is neither a capture nor a wildcard"
  | .duplicateBinding name => s!"name {name.label} is bound more than once"
  | .alternativesDiffer => "alternatives of an or-pattern bind different names"
  | .unreachable shadowedBy =>
    s!"clause is unreachable after irrefutable clause {shadowedBy}"

/-- Whether the problem lies in the pattern itself and not in the clause's place. -/
def isStructural : ProblemKind → Bool
  | .unreachable _ => false
  | _ => true

end ProblemKind

/-- A problem and the position of its clause. -/
structure Problem where
  clause : Nat
  kind : ProblemKind
deriving DecidableEq, Repr

/-- The members of a list that occurred before in it, each as often as it does again. -/
def repeats {α : Type} [DecidableEq α] (seen : List α) : List α → List α
  | [] => []
  | x :: xs => if x ∈ seen then x :: repeats seen xs else repeats (x :: seen) xs

/-- Whether two lists have the same members. -/
def sameMembers {α : Type} [DecidableEq α] (xs ys : List α) : Bool :=
  xs.all (· ∈ ys) && ys.all (· ∈ xs)

namespace Pattern

/-- What is wrong with the star of a sequence pattern. -/
def starProblems (items : List Pattern) : Option Nat → List ProblemKind
  | none => []
  | some star =>
    match items[star]? with
    | none => [.starOutOfRange star items.length]
    | some .wildcard | some (.capture _) => []
    | some _ => [.starNotCapture star]

/-- Whether some alternative binds other names than the first one. -/
def alternativesDiffer : List Pattern → Bool
  | [] => false
  | first :: rest => rest.any fun other => !sameMembers first.boundNames other.boundNames

mutual
/-- What is wrong inside a pattern, from left to right. -/
def problems : Pattern → List ProblemKind
  | .wildcard | .capture _ | .literal _ | .valueRef _ => []
  | .sequence items star => starProblems items star ++ problemsEach items
  | .mapping entries _ => problemsEntries [] entries
  | .ofClass _ positional keywords => problemsEach positional ++ problemsKeywords keywords
  | .named pattern _ => problems pattern
  | .anyOf alternatives =>
    problemsEach alternatives ++
      if alternativesDiffer alternatives then [.alternativesDiffer] else []

/-- What is wrong inside the patterns of a list. -/
def problemsEach : List Pattern → List ProblemKind
  | [] => []
  | pattern :: rest => problems pattern ++ problemsEach rest

/-- What is wrong with the entries of a mapping pattern, given the literal keys before them. -/
def problemsEntries (seen : List MapKey) : List (MappingKey × Pattern) → List ProblemKind
  | [] => []
  | (.literal value, pattern) :: rest =>
    let key := value.mapKey
    (if key ∈ seen then [.duplicateKey key] else []) ++
      problems pattern ++ problemsEntries (key :: seen) rest
  | (.computed _, pattern) :: rest => problems pattern ++ problemsEntries seen rest

/-- What is wrong inside keyword sub-patterns. -/
def problemsKeywords : List (Name × Pattern) → List ProblemKind
  | [] => []
  | (_, pattern) :: rest => problems pattern ++ problemsKeywords rest
end

end Pattern

/-- The structural problems of a clause. -/
def Clause.structuralProblems (clause : Clause) : List ProblemKind :=
  clause.pattern.problems ++ (repeats [] clause.pattern.boundNames).map .duplicateBinding

/-- Whether a clause always wins once it is reached. -/
def Clause.isIrrefutable (clause : Clause) : Bool :=
  clause.guard.isNone && clause.pattern.isIrrefutable

/-- The problems of the clauses from position `index` on, given the first irrefutable clause before
them. -/
def problemsFrom (index : Nat) (shadow : Option Nat) : List Clause → List Problem
  | [] => []
  | clause :: rest =>
    let unreachable := shadow.toList.map .unreachable
    let shadow := shadow.or (if clause.isIrrefutable then some index else none)
    (clause.structuralProblems ++ unreachable).map (Problem.mk index) ++
      problemsFrom (index + 1) shadow rest

/-- Everything wrong with a statement, ordered by clause. -/
def Statement.problems (statement : Statement) : List Problem :=
  problemsFrom 0 none statement.clauses

end StructuralMatch

import StructuralMatch.Handle
import StructuralMatch.Key

/-!
# `Pattern.Basic` — pattern trees, clauses and statements

A statement tries its clauses in order against one subject. A clause is a pattern, an optional guard and
a body. A pattern tests a value and binds names to the parts it finds.

## Contents

* `Literal` and the hash identity it has as a mapping key
* `MappingKey`, `Pattern`
* `Clause`, `Statement`
-/

namespace StructuralMatch

/-- A constant of a pattern. -/
inductive Literal where
  | none
  | bool (value : Bool)
  | int (value : Int)
  | float (value : Binary64)
  | str (name : Name)
deriving DecidableEq, Repr, Inhabited

namespace Literal

/-- Whether values are compared with the constant by identity rather than by equality. -/
def isSingleton : Literal → Bool
  | .none | .bool _ => true
  | _ => false

/-- The hash identity of the constant as a mapping key. -/
def mapKey : Literal → MapKey
  | .none => .none
  | .bool b => .ofBool b
  | .int n => .int n
  | .float x => .ofFloat x
  | .str name => .str name

end Literal

/-- The key of a mapping pattern's entry. -/
inductive MappingKey where
  | literal (value : Literal)
  /-- Computed by the host each time the entry is looked at. -/
  | computed (expr : ExprRef)
deriving DecidableEq, Repr, Inhabited

/-- A test on a value that binds names to its parts. -/
inductive Pattern where
  /-- Matches everything. -/
  | wildcard
  /-- Matches everything and binds it. -/
  | capture (name : Name)
  | literal (value : Literal)
  /-- Matches what equals the current value of an expression. -/
  | valueRef (expr : ExprRef)
  /-- Matches a sequence item by item. The item at the position `star` matches a fresh sequence of all
  the elements that the other items leave. -/
  | sequence (items : List Pattern) (star : Option Nat)
  /-- Matches the values at given keys of a mapping. The name `rest` is bound to a fresh mapping of the
  other entries; without it there must be none. -/
  | mapping (entries : List (MappingKey × Pattern)) (rest : Option Name)
  /-- Matches the instances of a class whose parts match. -/
  | ofClass (type : TypeId) (positional : List Pattern) (keywords : List (Name × Pattern))
  /-- Matches as the pattern does and binds the whole value then. -/
  | named (pattern : Pattern) (name : Name)
  /-- Matches as the first alternative that does. -/
  | anyOf (alternatives : List Pattern)
deriving Repr, Inhabited

/-- Whether a pattern is the one that matches everything and binds nothing. -/
def Pattern.isWildcard : Pattern → Bool
  | .wildcard => true
  | _ => false

/-- A pattern to try, with the guard that must hold then and the body to run. -/
structure Clause where
  pattern : Pattern
  guard : Option GuardRef
  body : BodyRef
deriving Repr, Inhabited

/-- A subject expression and the clauses to try on its value, in order. -/
structure Statement where
  subject : ExprRef
  clauses : List Clause
deriving Repr, Inhabited

end StructuralMatch

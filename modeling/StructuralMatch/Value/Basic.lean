import StructuralMatch.Handle
import StructuralMatch.Key

/-!
# `Value.Basic` — the values of the host

Small values stand for themselves. Strings, containers and objects are allocations: besides its contents
each carries the identity it was allocated under, and copies of a value share it.

## Contents

* `Value`
* `asInt?`, `asNumber?`, `asText?`, `asItems?`, `asEntries?`, `attribute?`
* `truthy`
-/

namespace StructuralMatch

/-- A value of the host. Integers have 64 bits. -/
inductive Value where
  | none
  | bool (value : Bool)
  | int (value : Int)
  | float (value : Binary64)
  | str (identity : Identity) (content : String)
  | list (identity : Identity) (items : List Value)
  | tuple (identity : Identity) (items : List Value)
  /-- The entries stand in insertion order; nothing keeps their keys apart. -/
  | dict (identity : Identity) (entries : List (Value × Value))
  /-- An instance of a class, with its attributes in definition order and the components it is taken
  apart into. -/
  | object (identity : Identity) (type : TypeId) (attributes : List (Name × Value))
      (components : List Value)
deriving Repr, Inhabited

namespace Value

/-- The integer that a value is; truth values are zero and one. -/
def asInt? : Value → Option Int
  | .int n => some n
  | .bool b => some (if b then 1 else 0)
  | _ => Option.none

/-- The number that a value is, as a double precision number. -/
def asNumber? : Value → Option Binary64
  | .bool b => some (.ofInt (if b then 1 else 0))
  | .int n => some (.ofInt n)
  | .float x => some x
  | _ => Option.none

/-- The content of a string. -/
def asText? : Value → Option String
  | .str _ content => some content
  | _ => Option.none

/-- The items of a list or tuple. -/
def asItems? : Value → Option (List Value)
  | .list _ items => some items
  | .tuple _ items => some items
  | _ => Option.none

/-- The entries of a dict. -/
def asEntries? : Value → Option (List (Value × Value))
  | .dict _ entries => some entries
  | _ => Option.none

/-- The first attribute of an object under a name. -/
def attribute? (name : Name) : Value → Option Value
  | .object _ _ attributes _ => (attributes.find? fun slot => slot.1 = name).map (·.2)
  | _ => Option.none

/-- The truth value: zeros and empty things are false, and so is the absent value. -/
def truthy : Value → Bool
  | .none => false
  | .bool b => b
  | .int n => n ≠ 0
  | .float x => !x.isZero
  | .str _ content => !content.isEmpty
  | .list _ items => !items.isEmpty
  | .tuple _ items => !items.isEmpty
  | .dict _ entries => !entries.isEmpty
  | .object .. => true

end Value

end StructuralMatch

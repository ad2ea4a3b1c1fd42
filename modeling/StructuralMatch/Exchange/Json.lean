import StructuralMatch.Key

/-!
# `Exchange.Json` — JSON values as the exchange format reads them

The format holds whole numbers and words only. So a number that is not written as an integer, and a
string that no text holds because half of a surrogate pair stands alone in it, are kept as `none`: they
may stand in what a reader passes over, and nowhere else.

## Contents

* `Json`
* the leaves `Json.natural?`, `Json.handle?`, `Json.size?`, `Json.word?`, `Json.bool?`, `Json.items?`
* `Json.fields?` and `optionalField?`, the layers of a record
-/

namespace StructuralMatch.Exchange

/-- A JSON value. The members of an object stand in the order of the text, repeated keys included. -/
inductive Json where
  | null
  | bool (value : Bool)
  | number (integer : Option Int)
  | string (text : Option String)
  | array (items : List Json)
  | object (members : List (Option String × Json))
deriving Repr, Inhabited

namespace Json

/-! ## Leaves -/

/-- A natural number below a bound. -/
def natural? (bound : Nat) : Json → Option Nat
  | .number (some n) => if 0 ≤ n ∧ n < bound then some n.toNat else none
  | _ => none

/-- The number of a name or a handle, which has 32 bits. -/
def handle? : Json → Option Nat := natural? (twoTo 32)

/-- A size, a position or a bit pattern, which has 64 bits. -/
def size? : Json → Option Nat := natural? (twoTo 64)

/-- An integer of 64 bits in two's complement. -/
def word? : Json → Option Int
  | .number (some n) => if MapKey.fitsWord n then some n else none
  | _ => none

/-- A truth value. -/
def bool? : Json → Option Bool
  | .bool b => some b
  | _ => none

/-- The items of an array, each read by the same reader. -/
def items? {α : Type} (read : Json → Option α) : Json → Option (List α)
  | .array items => items.mapM read
  | _ => none

/-! ## Records -/

/-- The only member of a given name, if there is one; a second one is an error. -/
def member? (members : List (Option String × Json)) (name : String) : Option (Option Json) :=
  match members.filter (·.1 = some name) with
  | [] => some none
  | [member] => some (some member.2)
  | _ => none

/-- The fields of a record, in the order of their names. An object may leave fields out and have members
of other names; an array has one item for each field. -/
def fields? (names : List String) : Json → Option (List (Option Json))
  | .object members => if members.all (·.1.isSome) then names.mapM (member? members) else none
  | .array items => if items.length = names.length then some (items.map some) else none
  | _ => none

/-- A field that may be null or left out. -/
def optionalField? {α : Type} (read : Json → Option α) : Option Json → Option (Option α)
  | none | some .null => some none
  | some json => (read json).map some

end Json

end StructuralMatch.Exchange

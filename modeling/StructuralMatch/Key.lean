import StructuralMatch.Name
import StructuralMatch.Number.Binary64

/-!
# `Key` — hash identities of mapping keys

Two mapping keys are one key when their hash identities are equal. Equal numbers share one identity:
`true`, `1` and `1.0` all have the identity of the integer one. A string has the identity of its name
once it is interned and that of its content before; a tuple has the identities of its items, and an
object its own allocation. These last three are opaque: nothing but equality is known of them.

## Contents

* `Identity`, `MapKey`, `MapKey.ofBool`, `MapKey.ofFloat`
* `MapKey.same` and the decision of equality
* `MapKey.label`
-/

namespace StructuralMatch

/-- The number of an allocation. -/
abbrev Identity := Nat

/-- The hash identity of a mapping key. -/
inductive MapKey where
  | none
  | int (value : Int)
  /-- A number that is not an integer of 64 bits. -/
  | float (value : Binary64)
  /-- An interned string. -/
  | str (name : Name)
  /-- An identity that is given as a bare number. -/
  | digest (code : Nat)
  /-- A string that is not interned. -/
  | text (content : String)
  | tuple (items : List MapKey)
  | object (identity : Identity)
deriving Repr, Inhabited

namespace MapKey

/-! ## Numbers -/

/-- Truth values are the integers zero and one. -/
def ofBool (b : Bool) : MapKey := .int (if b then 1 else 0)

/-- Whether an integer has 64 bits in two's complement. -/
def fitsWord (n : Int) : Bool := -(twoTo 63 : Int) ≤ n && n < twoTo 63

/-- A number that denotes an integer of 64 bits is that integer. -/
def ofFloat (x : Binary64) : MapKey :=
  match x.integer? with
  | some n => if fitsWord n then .int n else .float x
  | Option.none => .float x

/-! ## Equality -/

mutual
/-- Whether two identities are equal. -/
def same : MapKey → MapKey → Bool
  | .none, .none => true
  | .int m, .int n => m = n
  | .float x, .float y => x = y
  | .str m, .str n => m = n
  | .digest m, .digest n => m = n
  | .text s, .text t => s = t
  | .tuple xs, .tuple ys => sameItems xs ys
  | .object a, .object b => a = b
  | _, _ => false

/-- Whether two lists hold equal identities at equal places. -/
def sameItems : List MapKey → List MapKey → Bool
  | [], [] => true
  | x :: xs, y :: ys => same x y && sameItems xs ys
  | _, _ => false
end

mutual
theorem same_iff : (a b : MapKey) → (same a b = true ↔ a = b)
  | .none, b => by cases b <;> simp [same]
  | .int _, b => by cases b <;> simp [same]
  | .float _, b => by cases b <;> simp [same]
  | .str _, b => by cases b <;> simp [same]
  | .digest _, b => by cases b <;> simp [same]
  | .text _, b => by cases b <;> simp [same]
  | .tuple xs, b => by
    cases b with
    | tuple ys => simp [same, sameItems_iff xs ys]
    | _ => simp [same]
  | .object _, b => by cases b <;> simp [same]

theorem sameItems_iff : (xs ys : List MapKey) → (sameItems xs ys = true ↔ xs = ys)
  | [], ys => by cases ys <;> simp [sameItems]
  | x :: xs, ys => by
    cases ys with
    | nil => simp [sameItems]
    | cons y ys => simp [sameItems, same_iff x y, sameItems_iff xs ys]
end

instance : DecidableEq MapKey := fun a b => decidable_of_iff (same a b = true) (same_iff a b)

/-! ## Diagnostics -/

/-- How a diagnostic prints an identity. Only identities of literals reach one, and those are not
opaque. -/
def label : MapKey → String
  | .none => "None"
  | .int n => s!"Int({n})"
  | .float x => s!"Float({x.bits})"
  | .str name => s!"Str({name.label})"
  | .digest code => s!"Opaque({code})"
  | .text _ | .tuple _ | .object _ => "Opaque"

end MapKey

end StructuralMatch

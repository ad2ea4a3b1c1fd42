import StructuralMatch.Key

/-!
# `View` — a realized mapping

A view keeps the entries of a mapping in the host's order, each with the hash identity of its key. An
entry whose key has none counts and is captured with the rest, but it cannot be looked up. Of several
entries with one identity the last is the one that is found.

## Contents

* `MappingView.ofEntries`, `entries`, `size`
* `slot?`, `containsKey`, `get?`
* `remaining`, the entries that a list of keys leaves
-/

namespace StructuralMatch

/-- The entries of a mapping with the hash identities of their keys. -/
structure MappingView (V : Type) where
  slots : List (Option MapKey × V × V)
deriving Repr

namespace MappingView

variable {V : Type}

/-- The view of some entries, where `keyOf` gives the hash identity of a key. -/
def ofEntries (keyOf : V → Option MapKey) (entries : List (V × V)) : MappingView V :=
  ⟨entries.map fun entry => (keyOf entry.1, entry)⟩

/-- The entries in the host's order. -/
def entries (view : MappingView V) : List (V × V) := view.slots.map (·.2)

/-- The number of entries. -/
def size (view : MappingView V) : Nat := view.slots.length

/-- Whether there are no entries. -/
def isEmpty (view : MappingView V) : Bool := view.slots.isEmpty

/-- The position of the last of some entries whose key has the given identity. -/
def lastSlot? (key : MapKey) : List (Option MapKey × V × V) → Option Nat
  | [] => none
  | (identity, _) :: rest =>
    match lastSlot? key rest with
    | some position => some (position + 1)
    | none => if identity = some key then some 0 else none

/-- The position of the entry that a key finds. -/
def slot? (view : MappingView V) (key : MapKey) : Option Nat := lastSlot? key view.slots

/-- Whether a key finds an entry. -/
def containsKey (view : MappingView V) (key : MapKey) : Bool := (view.slot? key).isSome

/-- The value of the entry that a key finds. -/
def get? (view : MappingView V) (key : MapKey) : Option V :=
  (view.slot? key).bind fun position => (view.slots[position]?).map (·.2.2)

/-- The entries that none of the taken keys finds, in the host's order. -/
def remaining (view : MappingView V) (taken : List MapKey) : List (V × V) :=
  let positions := taken.filterMap view.slot?
  (view.entries.zipIdx.filter fun entry => entry.2 ∉ positions).map (·.1)

@[simp]
theorem entries_ofEntries (keyOf : V → Option MapKey) (entries : List (V × V)) :
    (ofEntries keyOf entries).entries = entries := by
  simp [ofEntries, MappingView.entries, Function.comp_def]

@[simp]
theorem size_ofEntries (keyOf : V → Option MapKey) (entries : List (V × V)) :
    (ofEntries keyOf entries).size = entries.length := by
  simp [ofEntries, size]

end MappingView

end StructuralMatch

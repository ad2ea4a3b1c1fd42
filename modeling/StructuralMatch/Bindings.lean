import StructuralMatch.Name

/-!
# `Bindings` — the names that a match has bound

Bindings are kept in binding order. A name that is bound again keeps its earlier binding, which the later
one hides. A `mark` remembers a length to cut back to.

## Contents

* `Bindings` with `bind`, `get?`, `mark`, `truncate`
-/

namespace StructuralMatch

/-- Names with their values, in binding order. -/
structure Bindings (V : Type) where
  slots : List (Name × V)
deriving Repr

namespace Bindings

variable {V : Type}

/-- No bindings. -/
def empty : Bindings V := ⟨[]⟩

instance : Inhabited (Bindings V) := ⟨empty⟩

/-- The number of bindings. -/
def size (bindings : Bindings V) : Nat := bindings.slots.length

/-- Whether nothing is bound. -/
def isEmpty (bindings : Bindings V) : Bool := bindings.slots.isEmpty

/-- Binds a name after all others. -/
def bind (bindings : Bindings V) (name : Name) (value : V) : Bindings V :=
  ⟨bindings.slots ++ [(name, value)]⟩

/-- The value that was bound to a name last. -/
def get? (bindings : Bindings V) (name : Name) : Option V :=
  (bindings.slots.findRev? fun slot => slot.1 = name).map (·.2)

/-- The length to cut back to with `truncate`. -/
def mark (bindings : Bindings V) : Nat := bindings.size

/-- Drops every binding made after a mark. -/
def truncate (bindings : Bindings V) (mark : Nat) : Bindings V := ⟨bindings.slots.take mark⟩

/-- Cutting back to a mark undoes the bindings made since. -/
theorem truncate_mark (bindings : Bindings V) (later : List (Name × V)) :
    truncate ⟨bindings.slots ++ later⟩ bindings.mark = bindings := by
  simp [truncate, mark, size]

end Bindings

end StructuralMatch

/-!
# `Name` — interned identifiers

Capture names, attribute names and string literals are compared as numbers. The texts live in an
`Interner`, which numbers them in the order of their first interning and starts with the empty text.

## Contents

* `Name`, `Name.label`
* `Interner`, with `get?` from texts to names, `lookup` from names to texts and `intern` to grow it
-/

namespace StructuralMatch

/-- An interned identifier: a position in the table of an `Interner`. -/
structure Name where
  index : Nat
deriving DecidableEq, Repr, Inhabited

namespace Name

/-- The empty text, which every interner holds first. -/
def empty : Name := ⟨0⟩

/-- How a diagnostic prints a name when it has no table to resolve it. -/
def label (name : Name) : String := s!"Name({name.index})"

end Name

/-- The texts interned so far, each at the position its name denotes. -/
structure Interner where
  texts : List String
deriving Repr

namespace Interner

/-- The table that holds the empty text only. -/
def initial : Interner := ⟨[""]⟩

instance : Inhabited Interner := ⟨initial⟩

/-- The number of interned texts, the empty one included. -/
def size (names : Interner) : Nat := names.texts.length

/-- Whether nothing but the empty text is interned. -/
def isEmpty (names : Interner) : Bool := names.size ≤ 1

/-- The name of a text that is interned already. -/
def get? (names : Interner) (text : String) : Option Name :=
  (names.texts.idxOf? text).map Name.mk

/-- The text of a name; a name of another table resolves to the empty text. -/
def lookup (names : Interner) (name : Name) : String :=
  names.texts[name.index]?.getD ""

/-- The name of a text, which takes the next number if it is new. -/
def intern (names : Interner) (text : String) : Name × Interner :=
  match names.get? text with
  | some name => (name, names)
  | none => (⟨names.size⟩, ⟨names.texts ++ [text]⟩)

/-- Interns several texts from left to right. -/
def internAll (names : Interner) : List String → List Name × Interner
  | [] => ([], names)
  | text :: texts =>
    let (name, names) := names.intern text
    let (rest, names) := names.internAll texts
    (name :: rest, names)

/-! ## What interning keeps -/

/-- A known text keeps the table as it is. -/
theorem intern_of_get? {names : Interner} {text : String} {name : Name}
    (known : names.get? text = some name) : names.intern text = (name, names) := by
  simp [intern, known]

/-- A new text is found at the end of the table. -/
theorem intern_of_get?_none {names : Interner} {text : String}
    (unknown : names.get? text = none) :
    names.intern text = (⟨names.size⟩, ⟨names.texts ++ [text]⟩) := by
  simp [intern, unknown]

/-- Interning only appends to the table. -/
theorem texts_isPrefix_intern (names : Interner) (text : String) :
    names.texts <+: (names.intern text).2.texts := by
  unfold intern
  split
  · exact List.prefix_rfl
  · exact List.prefix_append ..

end Interner

end StructuralMatch

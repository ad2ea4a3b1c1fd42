import Mathlib.Logic.Relation
import StructuralMatch.Host.Answers

/-!
# `Proofs.Grounded` — values whose objects belong to registered classes

Values come from outside, and nothing keeps an object from carrying the number of a class that is not
registered yet. A value is grounded if no object that it reaches does. What the host says about a grounded
value consists of parts of it, so that it is grounded again.

* `Registry.declaredKind_of_isPrefix`: classes that come later do not change the kind of a class.
* `Value.HasPart`, `Value.Reaches` and `Value.Grounded`, with `Value.grounded_iff`.
* `Host.hasPart_of_elementsOf` and its siblings: answers lead to parts.
-/

namespace StructuralMatch

/-- Each text has its name. -/
theorem Interner.length_internAll (names : Interner) (texts : List String) :
    (names.internAll texts).1.length = texts.length := by
  induction texts generalizing names with
  | nil => rfl
  | cons text rest ih => exact congrArg (· + 1) (ih _)

/-! ## Registered classes -/

namespace Registry

/-- A class of this number is registered. -/
def Registered (types : Registry) (type : TypeId) : Prop := type.index < types.size

/-- The built-in classes are registered. -/
def HasBuiltins (types : Registry) : Prop := builtinClasses.length ≤ types.size

/-- A new registry has the built-in classes and no others, whatever names are known. -/
theorem size_initial (names : Interner) : (initial names).1.size = builtinClasses.length := by
  simp [initial, size, Interner.length_internAll]

theorem hasBuiltins_initial (names : Interner) : (initial names).1.HasBuiltins :=
  Nat.le_of_eq (size_initial names).symm

/-- Classes that are registered later do not change a class. -/
theorem declaredKind_of_isPrefix {earlier later : Registry} (h : earlier.classes <+: later.classes)
    {type : TypeId} (htype : earlier.Registered type) :
    later.declaredKind type = earlier.declaredKind type := by
  obtain ⟨new, hnew⟩ := h
  simp only [declaredKind, entryOf, ← hnew, List.getElem?_append_left htype]

theorem Registered.of_prefix {earlier later : Registry} {type : TypeId} (htype : earlier.Registered type)
    (h : earlier.classes <+: later.classes) : later.Registered type :=
  Nat.lt_of_lt_of_le htype h.length_le

end Registry

/-! ## Grounded values -/

namespace Value

/-- The second value is a part of the first one. -/
inductive HasPart : Value → Value → Prop
  | listItem {identity items item} : item ∈ items → HasPart (.list identity items) item
  | tupleItem {identity items item} : item ∈ items → HasPart (.tuple identity items) item
  | key {identity entries entry} : entry ∈ entries → HasPart (.dict identity entries) entry.1
  | entry {identity entries entry} : entry ∈ entries → HasPart (.dict identity entries) entry.2
  | field {identity type attributes components slot} : slot ∈ attributes →
      HasPart (.object identity type attributes components) slot.2
  | component {identity type attributes components value} : value ∈ components →
      HasPart (.object identity type attributes components) value

/-- The second value is the first one or lies inside it. -/
def Reaches : Value → Value → Prop := Relation.ReflTransGen HasPart

/-- Every object that the value reaches belongs to a registered class. -/
def Grounded (types : Registry) (value : Value) : Prop :=
  ∀ identity type attributes components,
    value.Reaches (.object identity type attributes components) → types.Registered type

variable {types : Registry} {value : Value}

/-- A value is grounded if its own class is registered, where it is an object, and its parts are
    grounded. -/
theorem grounded_iff : value.Grounded types ↔
    (∀ identity type attributes components, value = .object identity type attributes components →
      types.Registered type) ∧ ∀ inner, value.HasPart inner → inner.Grounded types := by
  constructor
  · refine fun h => ⟨?_, fun inner hpart _ _ _ _ hinside => h _ _ _ _ (.head hpart hinside)⟩
    rintro identity type attributes components rfl
    exact h _ _ _ _ .refl
  · rintro ⟨hself, hparts⟩ identity type attributes components hinside
    rcases hinside.cases_head with heq | ⟨inner, hpart, hinside⟩
    · exact hself _ _ _ _ heq
    · exact hparts inner hpart _ _ _ _ hinside

/-- The parts of a grounded value are grounded. -/
theorem Grounded.part (h : value.Grounded types) {inner : Value} (hpart : value.HasPart inner) :
    inner.Grounded types :=
  (grounded_iff.mp h).2 inner hpart

/-- The type of a grounded value is registered. -/
theorem Grounded.registered (h : value.Grounded types) (hbuiltins : types.HasBuiltins) :
    types.Registered value.type := by
  -- Nine classes are built in, and the types of all values but objects are among them.
  have hnine : 9 ≤ types.size := hbuiltins
  have hbuiltin (type : TypeId) (h : type.index < 9) : types.Registered type :=
    Nat.lt_of_lt_of_le h hnine
  cases value with
  | object identity type attributes components => exact h _ _ _ _ .refl
  | none => exact hbuiltin .noneType (by decide)
  | bool => exact hbuiltin .bool (by decide)
  | int => exact hbuiltin .int (by decide)
  | float => exact hbuiltin .float (by decide)
  | str => exact hbuiltin .str (by decide)
  | list => exact hbuiltin .list (by decide)
  | tuple => exact hbuiltin .tuple (by decide)
  | dict => exact hbuiltin .dict (by decide)

/-- A list of grounded values is grounded. -/
theorem grounded_list {identity : Identity} {items : List Value}
    (h : ∀ item ∈ items, item.Grounded types) : (Value.list identity items).Grounded types := by
  refine grounded_iff.mpr ⟨fun _ _ _ _ heq => (by cases heq), fun inner hpart => ?_⟩
  cases hpart with
  | listItem hmem => exact h inner hmem

end Value

/-! ## What the host says about a value -/

namespace Host

variable {host : Host} {value : Value}

theorem hasPart_of_elementsOf {items : List Value} (h : host.elementsOf value = .ok items) :
    ∀ item ∈ items, value.HasPart item := by
  intro item hitem
  cases value <;> cases h
  · exact .listItem hitem
  · exact .tupleItem hitem

theorem hasPart_of_entriesOf {entries : List (Value × Value)} (h : host.entriesOf value = .ok entries) :
    ∀ entry ∈ entries, value.HasPart entry.2 := by
  intro entry hentry
  cases value <;> cases h
  exact .entry hentry

theorem hasPart_of_componentsOf {items : List Value} (h : host.componentsOf value = .ok items) :
    ∀ item ∈ items, value.HasPart item := by
  intro item hitem
  cases value <;> cases h
  exact .component hitem

theorem hasPart_of_attributeOf {name : Name} {found : Value}
    (h : host.attributeOf value name = .ok (some found)) : value.HasPart found := by
  unfold attributeOf at h
  split at h
  · cases h
  · cases value with
    | object identity type attributes components =>
      obtain ⟨slot, hslot, rfl⟩ := Option.map_eq_some_iff.mp (Except.ok.inj h)
      exact .field (List.mem_of_find?_eq_some hslot)
    | _ => cases h

end Host

end StructuralMatch

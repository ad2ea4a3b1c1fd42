import StructuralMatch.Proofs.Frame
import StructuralMatch.Proofs.Grounded
import StructuralMatch.Proofs.Inheritance

/-!
# `Proofs.ObjectFree` — values without objects are what their kinds announce

The kind of a type says whether a value of it may be asked for its elements or its entries, and a host that
cannot give them fails. For an object this may happen, as its class announces what it likes. The values of
the built-in types have the parts that their kinds announce: lists and tuples have elements, dicts have
entries, and no other built-in type is a sequence or a mapping. This stays so whatever classes are added.

* `Value.ObjectFree`: there is no object in the value. Its parts are object-free as well.
* `KindCache.FilledFrom.kindIn_builtin`: the kinds of the built-in types are those of the table, be they
  known or not.
* `Host.elementsOf_of_isSequence` and `Host.entriesOf_of_isMapping`: an object-free value is asked for
  nothing that it does not have.
-/

namespace StructuralMatch

/-! ## Object-free values -/

namespace Value

/-- **There is no object in the value.** -/
def ObjectFree (value : Value) : Prop :=
  ∀ identity type attributes components,
    ¬ value.Reaches (.object identity type attributes components)

variable {value : Value}

theorem not_registered_nil (type : TypeId) : ¬ Registry.Registered ⟨[]⟩ type :=
  Nat.not_lt_zero type.index

/-- The value is grounded where there are no classes. -/
theorem objectFree_iff_grounded : value.ObjectFree ↔ value.Grounded ⟨[]⟩ := by
  simp only [ObjectFree, Grounded, not_registered_nil]

/-- A value is object-free if it is no object and its parts are object-free. -/
theorem objectFree_iff : value.ObjectFree ↔
    (∀ identity type attributes components, ¬ value = .object identity type attributes components) ∧
      ∀ inner, value.HasPart inner → inner.ObjectFree := by
  simpa only [objectFree_iff_grounded, not_registered_nil] using @grounded_iff ⟨[]⟩ value

theorem ObjectFree.part (h : value.ObjectFree) {inner : Value} (hpart : value.HasPart inner) :
    inner.ObjectFree :=
  (objectFree_iff.mp h).2 inner hpart

/-- A list of object-free values is object-free. -/
theorem objectFree_list {identity : Identity} {items : List Value}
    (h : ∀ item ∈ items, item.ObjectFree) : (Value.list identity items).ObjectFree :=
  objectFree_iff_grounded.mpr (grounded_list fun item hitem => objectFree_iff_grounded.mp (h item hitem))

/-- An object-free value is of a built-in type. -/
theorem ObjectFree.type_lt (h : value.ObjectFree) : value.type.index < builtinClasses.length := by
  cases value with
  | object identity type attributes components => exact absurd .refl (h identity type attributes components)
  | _ => exact of_decide_eq_true rfl

end Value

/-! ## The kinds of built-in types -/

/-- The kind of a built-in type. -/
def builtinKind (type : TypeId) : MatchKind :=
  (ResolvedKind.ofFlags (builtinClasses[type.index]?.bind (·.2.2))).kind

/-- **The built-in types keep their kinds**, whatever classes are added. -/
theorem Registry.Reached.declaredKind_builtin {types : Registry} (h : types.Reached) {type : TypeId}
    (htype : type.index < builtinClasses.length) :
    types.declaredKind type = builtinClasses[type.index]?.bind (·.2.2) := by
  obtain ⟨names, offers, rfl⟩ := h
  have hregistered : (initial names).1.Registered type := by rwa [Registered, size_initial]
  rw [declaredKind_of_isPrefix (classes_isPrefix_after _ offers) hregistered, declaredKind_initial]

/-- The kind of a built-in type is right in every cache that was filled from registries. -/
theorem KindCache.FilledFrom.kindIn_builtin {cache : KindCache} {types : Registry}
    (h : cache.FilledFrom Registry.Reached) (htypes : types.Reached) {type : TypeId}
    (htype : type.index < builtinClasses.length) : cache.kindIn types type = builtinKind type := by
  obtain ⟨seen, hseen, hresolved⟩ := h.exists_resolve_fst htypes type
  rw [kindIn, hresolved, hseen.declaredKind_builtin htype, builtinKind]

namespace Value.ObjectFree

variable {value : Value}

/-- Of the built-in types, lists and tuples are sequences. -/
theorem exists_items (h : value.ObjectFree) (hkind : (builtinKind value.type).isSequence = true) :
    ∃ items, value.asItems? = some items := by
  cases value with
  | list identity items => exact ⟨items, rfl⟩
  | tuple identity items => exact ⟨items, rfl⟩
  | object identity type attributes components => exact absurd .refl (h identity type attributes components)
  | _ => cases hkind

/-- Of the built-in types, dicts are mappings. -/
theorem exists_entries (h : value.ObjectFree) (hkind : (builtinKind value.type).isMapping = true) :
    ∃ entries, value.asEntries? = some entries := by
  cases value with
  | dict identity entries => exact ⟨entries, rfl⟩
  | object identity type attributes components => exact absurd .refl (h identity type attributes components)
  | _ => cases hkind

end Value.ObjectFree

/-! ## Answers about object-free values -/

namespace Host

variable {value : Value}

/-- **An object-free sequence has elements**, and they are object-free. -/
theorem elementsOf_of_isSequence (host : Host) (h : value.ObjectFree)
    (hkind : (builtinKind value.type).isSequence = true) :
    ∃ items, host.elementsOf value = .ok items ∧ ∀ item ∈ items, item.ObjectFree := by
  obtain ⟨items, hitems⟩ := h.exists_items hkind
  have helements : host.elementsOf value = .ok items := by rw [elementsOf, hitems]
  exact ⟨items, helements, fun item hitem => h.part (hasPart_of_elementsOf helements item hitem)⟩

/-- **An object-free mapping has entries**, and their values are object-free. -/
theorem entriesOf_of_isMapping (host : Host) (h : value.ObjectFree)
    (hkind : (builtinKind value.type).isMapping = true) :
    ∃ entries, host.entriesOf value = .ok entries ∧ ∀ entry ∈ entries, entry.2.ObjectFree := by
  obtain ⟨entries, hentries⟩ := h.exists_entries hkind
  have hanswer : host.entriesOf value = .ok entries := by rw [entriesOf, hentries]
  exact ⟨entries, hanswer, fun entry hentry => h.part (hasPart_of_entriesOf hanswer entry hentry)⟩

end Host

end StructuralMatch

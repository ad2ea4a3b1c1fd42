import StructuralMatch.Proofs.Grounded

/-!
# `Proofs.Registration` — what comes of an offer of a class

A class is offered for registration with or without a look at the kind that it announces. It may be refused
for three reasons. If it is not, it is put behind the classes that are there.

* `Registration` is an offer, and `Registry.after` are the classes that some offers lead to.
  `Registry.Reached` are those that offers lead to from the built-in classes.
* `Registry.Refuses` and `Registry.Admits` say when an offer is refused, and for which reason, and when it is
  not.
* `Registry.tryOffer_cases` is the main result: nothing else can come of an offer.
* `Registry.after_of_afterOffer` leads from one offer to any number of them.
-/

namespace StructuralMatch

/-- A class that is offered for registration. -/
inductive Registration where
  /-- It is refused if the kind that it announces has a conflict. -/
  | checked (definition : ClassDef)
  /-- It is taken whatever the kind that it announces. -/
  | unchecked (definition : ClassDef)

/-- The class that a new class extends. -/
def ClassDef.parent (definition : ClassDef) : TypeId := definition.base.getD .object

namespace Registration

/-- The class that is offered. -/
def definition : Registration → ClassDef
  | .checked definition | .unchecked definition => definition

/-- The conflict in the announced kind, if it is looked for and there is one. -/
def conflict? : Registration → Option KindConflict
  | .checked definition =>
    match definition.kind.map MatchKind.ofFlags with
    | some (.error conflict) => some conflict
    | _ => none
  | .unchecked _ => none

end Registration

namespace Registry

/-! ## Offers -/

/-- What comes of an offer: the number of the new class and the classes with it, or a refusal. -/
def tryOffer (types : Registry) : Registration → Except RegistryError (TypeId × Registry)
  | .checked definition => types.register definition
  | .unchecked definition => types.registerUnchecked definition

/-- The classes after an offer, which are the same if it is refused. -/
def afterOffer (types : Registry) (offer : Registration) : Registry :=
  match types.tryOffer offer with
  | .ok (_, later) => later
  | .error _ => types

/-- The classes after some offers. -/
def after (types : Registry) (offers : List Registration) : Registry := offers.foldl afterOffer types

/-- Some offers lead from the built-in classes to these. -/
def Reached (types : Registry) : Prop := ∃ names offers, types = (initial names).1.after offers

/-- What the classes have and every offer keeps, they have after any number of offers. -/
theorem after_of_afterOffer {P : Registry → Prop} {types : Registry} (htypes : P types)
    (h : ∀ types offer, P types → P (types.afterOffer offer)) (offers : List Registration) :
    P (types.after offers) := by
  induction offers generalizing types with
  | nil => exact htypes
  | cons offer rest ih => exact ih (h types offer htypes)

/-- Some class has the name. -/
def HasName (types : Registry) (name : Name) : Prop :=
  ∃ entry ∈ types.classes, entry.definition.name = name

/-- **The reasons for which an offer is refused.** A conflict counts before a base that is not registered,
    and that before a name that a class has already. -/
inductive Refuses (types : Registry) (offer : Registration) : RegistryError → Prop
  | invalidKind {conflict} : offer.conflict? = some conflict →
      Refuses types offer (.invalidKind offer.definition.name conflict)
  | unknownBase : offer.conflict? = none → ¬ types.Registered offer.definition.parent →
      Refuses types offer (.unknownBase offer.definition.parent)
  | duplicate : offer.conflict? = none → types.Registered offer.definition.parent →
      types.HasName offer.definition.name → Refuses types offer (.duplicate offer.definition.name)

/-- **There is no reason to refuse the offer.** -/
structure Admits (types : Registry) (offer : Registration) : Prop where
  conflict : offer.conflict? = none
  base : types.Registered offer.definition.parent
  name : ¬ types.HasName offer.definition.name

/-- The entry of a new class. Its kind is the kind of its base if it announces none. -/
def newEntry (types : Registry) (definition : ClassDef) : ClassEntry where
  definition := { definition with base := some definition.parent }
  kind := definition.kind.or (types.declaredKind definition.parent)

/-- The classes with one more behind them. -/
def extendedBy (types : Registry) (definition : ClassDef) : Registry :=
  ⟨types.classes ++ [types.newEntry definition]⟩

variable {types : Registry} {definition : ClassDef}

/-! ## One more class -/

theorem classes_isPrefix_extendedBy (types : Registry) (definition : ClassDef) :
    types.classes <+: (types.extendedBy definition).classes :=
  List.prefix_append _ _

/-- The registered classes are those that were, and the one behind them. -/
theorem registered_extendedBy_iff {type : TypeId} :
    (types.extendedBy definition).Registered type ↔ types.Registered type ∨ type = ⟨types.size⟩ := by
  have hsize : (types.extendedBy definition).size = types.size + 1 := by simp [extendedBy, size]
  rw [Registered, hsize, Registered, Nat.lt_succ_iff_lt_or_eq]
  exact or_congr_right ⟨fun h => congrArg TypeId.mk h, fun h => congrArg TypeId.index h⟩

theorem entryOf_extendedBy_new (types : Registry) (definition : ClassDef) :
    (types.extendedBy definition).entryOf ⟨types.size⟩ = some (types.newEntry definition) := by
  simp [extendedBy, entryOf, size]

/-- Everything but the new class is as before, also where there is no class. -/
theorem entryOf_extendedBy_of_ne {type : TypeId} (h : ¬ type = ⟨types.size⟩) :
    (types.extendedBy definition).entryOf type = types.entryOf type := by
  rcases Nat.lt_trichotomy type.index types.size with hbelow | hnew | habove
  · exact List.getElem?_append_left hbelow
  · exact absurd (congrArg TypeId.mk hnew) h
  · have hlength : (types.extendedBy definition).classes.length = types.size + 1 := by
      simp [extendedBy, size]
    rw [entryOf, List.getElem?_eq_none (hlength ▸ habove), entryOf,
      List.getElem?_eq_none (Nat.le_of_lt habove)]

/-- The classes that were there are found as before. -/
theorem entryOf_of_isPrefix {later : Registry} (hlater : types.classes <+: later.classes) {type : TypeId}
    (h : types.Registered type) : later.entryOf type = types.entryOf type := by
  obtain ⟨new, hnew⟩ := hlater
  rw [entryOf, ← hnew, List.getElem?_append_left h, entryOf]

theorem get?_of_isPrefix {later : Registry} (hlater : types.classes <+: later.classes) {type : TypeId}
    (h : types.Registered type) : later.get? type = types.get? type := by
  rw [get?, get?, entryOf_of_isPrefix hlater h]

/-! ## What comes of an offer -/

theorem entryOf_eq_none {type : TypeId} (h : ¬ types.Registered type) : types.entryOf type = none :=
  List.getElem?_eq_none (Nat.le_of_not_lt h)

theorem isSome_lookup?_iff {name : Name} :
    (types.lookup? name).isSome = true ↔ types.HasName name := by
  simp [lookup?, HasName]

theorem exists_entryOf {type : TypeId} (h : types.Registered type) :
    ∃ entry, types.entryOf type = some entry :=
  ⟨_, List.getElem?_eq_getElem h⟩

theorem registerUnchecked_of_unknownBase (h : ¬ types.Registered definition.parent) :
    types.registerUnchecked definition = .error (.unknownBase definition.parent) := by
  have hentry := entryOf_eq_none h
  rw [ClassDef.parent] at hentry ⊢
  simp only [registerUnchecked, hentry]

theorem registerUnchecked_of_hasName (hbase : types.Registered definition.parent)
    (hname : types.HasName definition.name) :
    types.registerUnchecked definition = .error (.duplicate definition.name) := by
  obtain ⟨base, hentry⟩ := exists_entryOf hbase
  rw [ClassDef.parent] at hentry
  simp only [registerUnchecked, hentry, isSome_lookup?_iff.mpr hname, if_true]

theorem registerUnchecked_of_new (hbase : types.Registered definition.parent)
    (hname : ¬ types.HasName definition.name) :
    types.registerUnchecked definition = .ok (⟨types.size⟩, types.extendedBy definition) := by
  obtain ⟨base, hentry⟩ := exists_entryOf hbase
  have hkind : types.declaredKind definition.parent = base.kind := by
    rw [declaredKind, hentry]
    rfl
  rw [extendedBy, newEntry, hkind]
  rw [ClassDef.parent] at hentry ⊢
  simp only [registerUnchecked, hentry, if_neg (mt isSome_lookup?_iff.mp hname)]

/-- Where no conflict is found, both kinds of offer are one. -/
theorem tryOffer_eq (types : Registry) (offer : Registration) : types.tryOffer offer =
    match offer.conflict? with
    | some conflict => .error (.invalidKind offer.definition.name conflict)
    | none => types.registerUnchecked offer.definition := by
  cases offer with
  | unchecked definition => rfl
  | checked definition =>
    simp only [tryOffer, register, Registration.conflict?, Registration.definition]
    cases definition.kind.map MatchKind.ofFlags with
    | none => rfl
    | some decoded => cases decoded <;> rfl

/-- **An offer is refused for a reason, or there is none and one class is put behind the others.** -/
theorem tryOffer_cases (types : Registry) (offer : Registration) :
    (∃ e, types.Refuses offer e ∧ types.tryOffer offer = .error e) ∨
      types.Admits offer ∧ types.tryOffer offer = .ok (⟨types.size⟩, types.extendedBy offer.definition) := by
  rw [tryOffer_eq]
  cases hconflict : offer.conflict? with
  | some conflict => exact .inl ⟨_, .invalidKind hconflict, rfl⟩
  | none =>
    by_cases hbase : types.Registered offer.definition.parent
    · by_cases hname : types.HasName offer.definition.name
      · exact .inl ⟨_, .duplicate hconflict hbase hname, registerUnchecked_of_hasName hbase hname⟩
      · exact .inr ⟨⟨hconflict, hbase, hname⟩, registerUnchecked_of_new hbase hname⟩
    · exact .inl ⟨_, .unknownBase hconflict hbase, registerUnchecked_of_unknownBase hbase⟩

/-- An offer that is refused changes nothing, and one that is not adds its class. -/
theorem afterOffer_cases (types : Registry) (offer : Registration) :
    types.afterOffer offer = types ∨
      types.Admits offer ∧ types.afterOffer offer = types.extendedBy offer.definition := by
  rcases types.tryOffer_cases offer with ⟨e, -, hrefused⟩ | ⟨hadmits, hresult⟩
  · left
    simp only [afterOffer, hrefused]
  · right
    exact ⟨hadmits, by simp only [afterOffer, hresult]⟩

/-- An offer that is not refused puts a class behind the others. -/
theorem classes_isPrefix_of_tryOffer {later : Registry} {type : TypeId} (offer : Registration)
    (h : types.tryOffer offer = .ok (type, later)) : types.classes <+: later.classes := by
  rcases types.tryOffer_cases offer with ⟨e, -, hresult⟩ | ⟨-, hresult⟩ <;> rw [hresult] at h <;> cases h
  exact types.classes_isPrefix_extendedBy offer.definition

/-- **Offers only add classes.** -/
theorem classes_isPrefix_after (types : Registry) (offers : List Registration) :
    types.classes <+: (types.after offers).classes := by
  refine after_of_afterOffer (P := fun later => types.classes <+: later.classes) List.prefix_rfl
    (fun later offer h => ?_) offers
  rcases later.afterOffer_cases offer with heq | ⟨-, heq⟩
  · rwa [heq]
  · rw [heq]
    exact h.trans (later.classes_isPrefix_extendedBy offer.definition)

end Registry

end StructuralMatch

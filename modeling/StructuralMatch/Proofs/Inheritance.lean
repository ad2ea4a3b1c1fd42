import StructuralMatch.Match.KindCache
import StructuralMatch.Proofs.BaseChain

/-!
# `Proofs.Inheritance` — what a class does not declare it takes from the nearest base that does

Of the three declarations that are inherited, attribute names and forbidden attributes are looked for along
the bases whenever they are asked for. The kind is not: a class is given it once, when it is registered, out
of its own declaration and the kind that was given to its base. That is the kind which a search along the
bases would find, however long the chain is.

* `Registry.KindsInherited` says so for one step of the chain. It is kept by every offer
  (`KindsInherited.afterOffer`), and `Climb.declaredKind_eq` leads to the whole chain.
* `KindCache.FilledFrom`: what is known was resolved against registries of some sort.
* `Registry.inheritance_after` is the main result. It also says that where no class is added unchecked, every
  kind that is resolved has no conflict.
-/

namespace StructuralMatch

namespace Registry

variable {types : Registry} {type : TypeId} {chain : List TypeId} {definition : ClassDef}

/-! ## Kinds along a chain -/

/-- The kind that a class itself announces. -/
def ownKind (types : Registry) (type : TypeId) : Option KindFlags := (types.get? type).bind (·.kind)

/-- **The kind of a class is its own**, or else the kind of its base. -/
def KindsInherited (types : Registry) : Prop := ∀ type,
  types.declaredKind type = (types.ownKind type).or ((types.baseOf type).bind types.declaredKind)

/-- So it is the kind that the first class on the chain announces. -/
theorem Climb.declaredKind_eq (h : types.Climb type chain) (hkinds : types.KindsInherited) :
    types.declaredKind type = chain.findSome? types.ownKind := by
  induction h with
  | @top type htop =>
    rw [hkinds type, htop]
    cases hown : types.ownKind type <;> simp [hown]
  | @up type base above hbase _ ih =>
    rw [hkinds type, hbase, List.findSome?_cons, ← ih]
    cases types.ownKind type <;> rfl

theorem declaredKind_initial (names : Interner) (type : TypeId) :
    (initial names).1.declaredKind type = builtinClasses[type.index]?.bind (·.2.2) := by
  obtain ⟨name, hentry⟩ := exists_entryOf_initial names type
  rw [declaredKind, hentry]
  cases builtinClasses[type.index]? <;> rfl

theorem ownKind_initial (names : Interner) (type : TypeId) :
    (initial names).1.ownKind type = builtinClasses[type.index]?.bind (·.2.2) := by
  obtain ⟨name, hentry⟩ := exists_entryOf_initial names type
  rw [ownKind, get?, hentry]
  cases builtinClasses[type.index]? <;> rfl

/-- Those of the built-in classes that announce no kind have no kind to inherit either. -/
theorem kindsInherited_initial (names : Interner) : (initial names).1.KindsInherited := by
  have htable : ∀ builtin ∈ builtinClasses, builtin.2.2 =
      builtin.2.2.or (builtin.2.1.bind fun base => builtinClasses[base.index]?.bind (·.2.2)) := by decide
  intro type
  rw [declaredKind_initial, ownKind_initial, baseOf_initial, funext (declaredKind_initial names)]
  cases hbuiltin : builtinClasses[type.index]? with
  | none => rfl
  | some builtin => exact htable builtin (List.mem_of_getElem? hbuiltin)

theorem declaredKind_extendedBy_new (types : Registry) (definition : ClassDef) :
    (types.extendedBy definition).declaredKind ⟨types.size⟩ =
      definition.kind.or (types.declaredKind definition.parent) := by
  rw [declaredKind, entryOf_extendedBy_new]
  rfl

theorem declaredKind_extendedBy_of_ne (h : ¬ type = ⟨types.size⟩) :
    (types.extendedBy definition).declaredKind type = types.declaredKind type := by
  rw [declaredKind, entryOf_extendedBy_of_ne h, declaredKind]

/-- **One more class** takes over the kind of its base, and the bases of the others are not new. -/
theorem KindsInherited.extendedBy (h : types.KindsInherited) (hrooted : types.Rooted)
    (hparent : types.Registered definition.parent) : (types.extendedBy definition).KindsInherited := by
  have hold {base : TypeId} (hbase : types.Registered base) :
      (types.extendedBy definition).declaredKind base = types.declaredKind base :=
    declaredKind_of_isPrefix (types.classes_isPrefix_extendedBy definition) hbase
  intro type
  by_cases hnew : type = ⟨types.size⟩
  · subst hnew
    have hown : (types.extendedBy definition).ownKind ⟨types.size⟩ = definition.kind := by
      rw [ownKind, get?, entryOf_extendedBy_new]
      rfl
    rw [declaredKind_extendedBy_new, hown, baseOf_extendedBy_new, Option.bind_some, hold hparent]
  · have hget : (types.extendedBy definition).get? type = types.get? type := by
      rw [get?, entryOf_extendedBy_of_ne hnew, get?]
    have hown : (types.extendedBy definition).ownKind type = types.ownKind type := by
      rw [ownKind, hget, ownKind]
    have hsame : (types.extendedBy definition).baseOf type = types.baseOf type := by
      rw [baseOf, hget, baseOf]
    rw [declaredKind_extendedBy_of_ne hnew, h type, hown, hsame]
    cases hbase : types.baseOf type with
    | none => rfl
    | some base => rw [Option.bind_some, Option.bind_some, hold (hrooted.registered_base hbase)]

/-- **An offer keeps the kinds inherited.** -/
theorem KindsInherited.afterOffer (h : types.KindsInherited) (hrooted : types.Rooted)
    (offer : Registration) : (types.afterOffer offer).KindsInherited := by
  rcases types.afterOffer_cases offer with heq | ⟨hadmits, heq⟩
  · rwa [heq]
  · rw [heq]
    exact h.extendedBy hrooted hadmits.base

theorem kindsInherited_after (names : Interner) (offers : List Registration) :
    ((initial names).1.after offers).KindsInherited :=
  (after_of_afterOffer (P := fun types => types.Rooted ∧ types.KindsInherited)
    ⟨rooted_initial names, kindsInherited_initial names⟩
    (fun _ offer h => ⟨h.1.afterOffer offer, h.2.afterOffer h.1 offer⟩) offers).2

/-! ## Kinds without conflict -/

/-- No class has a kind with a conflict. -/
def Conforming (types : Registry) : Prop :=
  ∀ type, (ResolvedKind.ofFlags (types.declaredKind type)).conforming = true

theorem conforming_initial (names : Interner) : (initial names).1.Conforming := by
  have htable : ∀ builtin ∈ builtinClasses, (ResolvedKind.ofFlags builtin.2.2).conforming = true := by
    decide
  intro type
  rw [declaredKind_initial]
  cases hbuiltin : builtinClasses[type.index]? with
  | none => rfl
  | some builtin => exact htable builtin (List.mem_of_getElem? hbuiltin)

/-- No class is added without a look at the kind that it announces, since every such offer is refused. -/
def AllChecked (types : Registry) (offers : List Registration) : Prop :=
  ∀ before definition rest, offers = before ++ .unchecked definition :: rest →
    ∃ e, (types.after before).tryOffer (.unchecked definition) = .error e

/-- What is looked at before it is added has no conflict. -/
theorem conforming_of_conflict? (h : (Registration.checked definition).conflict? = none)
    {flags : KindFlags} (hkind : definition.kind = some flags) :
    (ResolvedKind.ofFlags (some flags)).conforming = true := by
  rw [Registration.conflict?, hkind] at h
  rw [ResolvedKind.ofFlags]
  cases hdecoded : MatchKind.ofFlags flags with
  | ok kind => rfl
  | error conflict =>
    rw [Option.map_some, hdecoded] at h
    cases h

/-- **A checked offer brings no conflict in**: the kind of the new class is checked or inherited. -/
theorem Conforming.afterOffer_checked (h : types.Conforming) (definition : ClassDef) :
    (types.afterOffer (.checked definition)).Conforming := by
  rcases types.afterOffer_cases (.checked definition) with heq | ⟨hadmits, heq⟩
  · rwa [heq]
  rw [heq, Registration.definition]
  intro type
  by_cases hnew : type = ⟨types.size⟩
  · rw [hnew, declaredKind_extendedBy_new]
    cases hkind : definition.kind with
    | none => exact h definition.parent
    | some flags => exact conforming_of_conflict? hadmits.conflict hkind
  · rw [declaredKind_extendedBy_of_ne hnew]
    exact h type

theorem Conforming.after (h : types.Conforming) {offers : List Registration}
    (hchecked : types.AllChecked offers) : (types.after offers).Conforming := by
  induction offers generalizing types with
  | nil => exact h
  | cons offer rest ih =>
    refine ih ?_ fun before definition after hrest =>
      hchecked (offer :: before) definition after (congrArg (offer :: ·) hrest)
    cases offer with
    | checked definition => exact h.afterOffer_checked definition
    | unchecked definition =>
      obtain ⟨e, hrefused⟩ := hchecked [] definition rest rfl
      have hrefused : types.tryOffer (.unchecked definition) = .error e := hrefused
      rw [Registry.afterOffer, hrefused]
      exact h

end Registry

/-! ## What is known of kinds -/

namespace KindCache

variable {Seen : Registry → Prop} {cache : KindCache} {types : Registry} {type : TypeId}

/-- Whatever the cache knows came from looking up the kinds of types in registries of the given sort. -/
inductive FilledFrom (Seen : Registry → Prop) : KindCache → Prop
  | empty : FilledFrom Seen .empty
  | resolve {cache : KindCache} {types : Registry} (type : TypeId) : FilledFrom Seen cache → Seen types →
      FilledFrom Seen (cache.resolve types type).2

theorem FilledFrom.of_get? (h : cache.FilledFrom Seen) {resolved : ResolvedKind}
    (hknown : cache.get? type = some resolved) :
    ∃ seen, Seen seen ∧ resolved = .ofFlags (seen.declaredKind type) := by
  induction h with
  | empty => cases hknown
  | @resolve cache types asked _ hseen ih =>
    unfold KindCache.resolve at hknown
    cases hasked : cache.get? asked with
    | some found =>
      rw [hasked] at hknown
      exact ih hknown
    | none =>
      rw [hasked] at hknown
      simp only [get?, List.lookup_cons] at hknown
      split at hknown
      · rename_i heq
        rw [eq_of_beq heq]
        exact ⟨types, hseen, (Option.some.inj hknown).symm⟩
      · exact ih hknown

/-- **A kind is what some registry of the sort says it is**, be it known or not. -/
theorem FilledFrom.exists_resolve_fst (h : cache.FilledFrom Seen) (htypes : Seen types) (type : TypeId) :
    ∃ seen, Seen seen ∧ (cache.resolve types type).1 = .ofFlags (seen.declaredKind type) := by
  unfold KindCache.resolve
  cases hknown : cache.get? type with
  | some resolved => exact h.of_get? hknown
  | none => exact ⟨types, htypes, rfl⟩

end KindCache

/-! ## Inheritance -/

namespace Registry

/-- Some offers, all of them checked, lead from the built-in classes to these. -/
def ReachedChecked (types : Registry) : Prop :=
  ∃ names offers, (initial names).1.AllChecked offers ∧ types = (initial names).1.after offers

/-- **What a class inherits along its chain of bases**, itself in front. -/
structure InheritsAlong (types : Registry) (type : TypeId) (chain : List TypeId) : Prop where
  climb : types.Climb type chain
  /-- The kind that the first class announces which announces any. -/
  declaredKind : types.declaredKind type = chain.findSome? types.ownKind
  /-- The attribute names of the first class that names any. -/
  matchArgs : types.matchArgs type = (chain.findSome? types.ownMatchArgs).getD []
  /-- The attributes that some class forbids. -/
  raises : ∀ name, types.raises type name = true ↔ ∃ passed ∈ chain, types.forbids name passed = true

/-- **Declarations come from the nearest class that makes them**, whatever classes are offered and in which
    order. If no class is added unchecked, no kind that is resolved has a conflict, whatever was resolved
    before against such classes. -/
theorem inheritance_after (names : Interner) (offers : List Registration) :
    let types := (initial names).1.after offers
    (∀ type, ∃ chain, types.InheritsAlong type chain) ∧
      ((initial names).1.AllChecked offers →
        ∀ cache : KindCache, cache.FilledFrom ReachedChecked →
        ∀ type, (cache.resolve types type).1.conforming = true) := by
  intro types
  constructor
  · intro type
    have hclimb : types.Climb type (types.chain type) := (rooted_after names offers).climb_chain type
    exact ⟨types.chain type, {
      climb := hclimb
      declaredKind := hclimb.declaredKind_eq (kindsInherited_after names offers)
      matchArgs := types.matchArgs_eq type
      raises := fun name => List.any_eq_true }⟩
  · intro hchecked cache hcache type
    obtain ⟨_, ⟨names', offers', hchecked', rfl⟩, hresolved⟩ :=
      hcache.exists_resolve_fst ⟨names, offers, hchecked, rfl⟩ type
    rw [hresolved]
    exact (conforming_initial names').after hchecked' type

/-- A class that announces a kind without conflict, and then one of the same name that announces one with a
    conflict: the first is added, and the second is refused although its kind is not looked at. -/
theorem inheritance_after_refused :
    let offers : List Registration :=
      [.checked { name := ⟨20⟩, kind := some .sequence },
        .unchecked { name := ⟨20⟩, kind := some (.sequence ||| .mapping) }]
    let types := (initial .initial).1.after offers
    (initial .initial).1.AllChecked offers ∧ types.size = 10 ∧
      (KindCache.empty.resolve types ⟨9⟩).1.conforming = true := by
  intro offers types
  have hchecked : (initial .initial).1.AllChecked offers := by
    intro before definition rest h
    cases before with
    | nil => simp [offers] at h
    | cons first before =>
      cases before with
      | nil =>
        simp only [offers, List.cons_append, List.nil_append, List.cons.injEq] at h
        obtain ⟨rfl, h, -⟩ := h
        cases h
        exact ⟨.duplicate ⟨20⟩, by decide⟩
      | cons second before => simp [offers] at h
  exact ⟨hchecked, by decide, (inheritance_after .initial offers).2 hchecked .empty .empty ⟨9⟩⟩

end Registry

end StructuralMatch

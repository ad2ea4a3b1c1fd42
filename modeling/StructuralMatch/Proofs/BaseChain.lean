import Mathlib.Data.List.Nodup
import StructuralMatch.Proofs.Registration

/-!
# `Proofs.BaseChain` — the bases of a class form a tree

What a class inherits is found by walking up its bases. Nothing in a table of classes says that such a
walk ends: a base is a number, and a class may well be registered before its base, as `bool` is before
`int`. It ends because a class can only be registered on a base that is registered by then, so that every
new chain of bases is an old one with one more class in front.

* `Registry.Climb` is a walk through all bases, as a finite derivation, and `Registry.Walk` is one that
  stops at the first class with an answer.
* `Registry.Rooted` is the invariant: from every registered class a climb leads to `object`. It holds of
  the built-in classes (`rooted_initial`), is kept by one registration (`Rooted.afterOffer`), and so by
  any number of them (`rooted_after`).
* `Registry.isTree_after` is the main result: the walks for `isSubtype`, `matchArgs` and `raises` end, and
  to be a subtype is a partial order whose upper parts are chains that end at `object`.
-/

namespace StructuralMatch

namespace Registry

/-! ## Climbs and walks -/

/-- The base of a class; neither `object` nor a class that is not registered has one. -/
def baseOf (types : Registry) (type : TypeId) : Option TypeId := (types.get? type).bind (·.base)

/-- **A climb** from a class through its bases, up to one without a base. The classes on the way are
    listed, the nearest first. -/
inductive Climb (types : Registry) : TypeId → List TypeId → Prop
  | top {type} : types.baseOf type = none → Climb types type [type]
  | up {type base above} : types.baseOf type = some base → Climb types base above →
      Climb types type (type :: above)

/-- **A walk** up the bases of a class that looks for an answer. It stops at the first class that has one,
    and it gives a fallback where it finds none up to a class without a base. -/
inductive Walk {α : Type} (types : Registry) (answer : TypeId → Option α) (fallback : α) :
    TypeId → α → Prop
  | found {type a} : answer type = some a → Walk types answer fallback type a
  | top {type} : answer type = none → types.baseOf type = none →
      Walk types answer fallback type fallback
  | up {type base a} : answer type = none → types.baseOf type = some base →
      Walk types answer fallback base a → Walk types answer fallback type a

/-- The answer of a class that the walk looks for. -/
def yesIf (sought : TypeId → Bool) (type : TypeId) : Option Bool := if sought type then some true else none

/-- The attributes that a class names for positional sub-patterns, if it names any. -/
def ownMatchArgs (types : Registry) (type : TypeId) : Option (List Name) :=
  ((types.get? type).map (·.matchArgs)).filter (!·.isEmpty)

/-- Whether a class itself forbids an attribute to be read. -/
def forbids (types : Registry) (name : Name) (type : TypeId) : Bool :=
  (types.get? type).any fun definition => name ∈ definition.raisingAttributes

theorem baseOf_extendedBy_new (types : Registry) (definition : ClassDef) :
    (types.extendedBy definition).baseOf ⟨types.size⟩ = some definition.parent := by
  rw [baseOf, get?, entryOf_extendedBy_new]
  rfl

variable {types : Registry} {type base : TypeId} {chain : List TypeId}

/-- Only a registered class has a base. -/
theorem registered_of_baseOf (h : types.baseOf type = some base) : types.Registered type := by
  obtain ⟨definition, hdefinition, -⟩ := Option.bind_eq_some_iff.mp h
  obtain ⟨entry, hentry, -⟩ := Option.map_eq_some_iff.mp hdefinition
  exact (List.getElem?_eq_some_iff.mp hentry).1

theorem baseOf_eq_none (h : ¬ types.Registered type) : types.baseOf type = none := by
  rw [baseOf, get?, entryOf_eq_none h]
  rfl

/-- Classes that come later do not change the base of a class. -/
theorem baseOf_of_isPrefix {later : Registry} (hlater : types.classes <+: later.classes)
    (htype : types.Registered type) : later.baseOf type = types.baseOf type := by
  rw [baseOf, get?_of_isPrefix hlater htype, baseOf]

namespace Climb

theorem exists_eq_cons (h : types.Climb type chain) : ∃ above, chain = type :: above := by
  cases h with
  | top => exact ⟨[], rfl⟩
  | up => exact ⟨_, rfl⟩

/-- From one class there is one climb. -/
theorem unique {other : List TypeId} (h : types.Climb type chain) (h' : types.Climb type other) :
    chain = other := by
  induction h generalizing other with
  | top htop =>
    cases h' with
    | top => rfl
    | up hbase => rw [htop] at hbase; cases hbase
  | up hbase _ ih =>
    cases h' with
    | top htop => rw [htop] at hbase; cases hbase
    | up hbase' habove' =>
      rw [hbase] at hbase'
      cases hbase'
      rw [ih habove']

/-- From each class on the way the climb goes on as one of its own. -/
theorem of_mem (h : types.Climb type chain) {ancestor : TypeId} (hmem : ancestor ∈ chain) :
    ∃ above, types.Climb ancestor above ∧ above <:+ chain := by
  induction h with
  | top htop =>
    obtain rfl := List.mem_singleton.mp hmem
    exact ⟨_, .top htop, List.suffix_rfl⟩
  | up hbase habove ih =>
    rcases List.mem_cons.mp hmem with rfl | hmem
    · exact ⟨_, .up hbase habove, List.suffix_rfl⟩
    · obtain ⟨above, hclimb, hsuffix⟩ := ih hmem
      exact ⟨above, hclimb, hsuffix.trans (List.suffix_cons _ _)⟩

/-- **No class is met twice.** From its second place on the climb would be as long as from its first. -/
theorem nodup (h : types.Climb type chain) : chain.Nodup := by
  induction h with
  | top => exact List.nodup_singleton _
  | @up type base above hbase habove ih =>
    refine List.nodup_cons.mpr ⟨fun hmem => ?_, ih⟩
    obtain ⟨again, hclimb, hsuffix⟩ := habove.of_mem hmem
    have hlength : again.length ≤ above.length := hsuffix.length_le
    rw [hclimb.unique (.up hbase habove), List.length_cons] at hlength
    omega

/-- All classes on the way but the last are registered. -/
theorem registered_of_mem_dropLast (h : types.Climb type chain) :
    ∀ passed ∈ chain.dropLast, types.Registered passed := by
  induction h with
  | top => simp
  | up hbase habove ih =>
    intro passed hmem
    obtain ⟨above, rfl⟩ := habove.exists_eq_cons
    rcases List.mem_cons.mp hmem with rfl | hmem
    · exact registered_of_baseOf hbase
    · exact ih passed hmem

/-- **A climb has no more steps than there are classes.** -/
theorem length_le (h : types.Climb type chain) : chain.length ≤ types.size + 1 := by
  have hdistinct : (chain.dropLast.map TypeId.index).Nodup := by
    refine List.Nodup.map ?_ (h.nodup.sublist (List.dropLast_sublist chain))
    rintro ⟨i⟩ ⟨j⟩ hij
    exact congrArg TypeId.mk hij
  have hbelow : chain.dropLast.map TypeId.index ⊆ List.range types.size := by
    intro index hmem
    obtain ⟨passed, hpassed, rfl⟩ := List.mem_map.mp hmem
    exact List.mem_range.mpr (h.registered_of_mem_dropLast passed hpassed)
  have hlength := hdistinct.length_le_of_subset hbelow
  rw [List.length_map, List.length_dropLast, List.length_range] at hlength
  omega

theorem chainUpTo_eq (h : types.Climb type chain) {steps : Nat} (hsteps : chain.length ≤ steps + 1) :
    types.chainUpTo type steps = chain := by
  induction h generalizing steps with
  | @top type htop =>
    cases steps with
    | zero => rfl
    | succ steps =>
      show type :: (types.baseOf type).elim [] (types.chainUpTo · steps) = [type]
      rw [htop]
      rfl
  | @up type base above hbase habove ih =>
    cases steps with
    | zero =>
      obtain ⟨rest, rfl⟩ := habove.exists_eq_cons
      simp only [List.length_cons] at hsteps
      omega
    | succ steps =>
      show type :: (types.baseOf type).elim [] (types.chainUpTo · steps) = type :: above
      rw [hbase]
      exact congrArg (type :: ·) (ih (Nat.le_of_succ_le_succ hsteps))

/-- **The bound on the chain of a class is never reached**: the chain is the whole climb. -/
theorem chain_eq (h : types.Climb type chain) : types.chain type = chain := h.chainUpTo_eq h.length_le

/-- A climb through classes that are registered is not changed by classes that come later. -/
theorem of_prefix {later : Registry} (h : types.Climb type chain)
    (hlater : types.classes <+: later.classes) (hchain : ∀ passed ∈ chain, types.Registered passed) :
    later.Climb type chain := by
  induction h with
  | top htop =>
    refine .top ?_
    rw [baseOf_of_isPrefix hlater (hchain _ List.mem_cons_self), htop]
  | up hbase _ ih =>
    refine .up ?_ (ih fun passed hpassed => hchain passed (List.mem_cons_of_mem _ hpassed))
    rw [baseOf_of_isPrefix hlater (hchain _ List.mem_cons_self), hbase]

end Climb

/-! ## Walks that may stop early -/

/-- A walk ends if the climb does, with the first answer on the way. -/
theorem Climb.walk {α : Type} (h : types.Climb type chain) (answer : TypeId → Option α) (fallback : α) :
    types.Walk answer fallback type ((chain.findSome? answer).getD fallback) := by
  induction h with
  | @top type htop =>
    cases hanswer : answer type with
    | some a =>
      rw [List.findSome?_cons_of_isSome (by simp [hanswer]), hanswer]
      exact .found hanswer
    | none =>
      rw [List.findSome?_cons_of_isNone (by simp [hanswer])]
      exact .top hanswer htop
  | @up type base above hbase _ ih =>
    cases hanswer : answer type with
    | some a =>
      rw [List.findSome?_cons_of_isSome (by simp [hanswer]), hanswer]
      exact .found hanswer
    | none =>
      rw [List.findSome?_cons_of_isNone (by simp [hanswer])]
      exact .up hanswer hbase ih

theorem any_eq_findSome? (chain : List TypeId) (sought : TypeId → Bool) :
    chain.any sought = (chain.findSome? (yesIf sought)).getD false := by
  induction chain with
  | nil => rfl
  | cons passed rest ih =>
    cases hsought : sought passed with
    | true => simp [yesIf, hsought]
    | false => simpa [List.findSome?_cons, yesIf, hsought] using ih

theorem isSubtype_eq (types : Registry) (type ancestor : TypeId) :
    types.isSubtype type ancestor =
      ((types.chain type).findSome? (yesIf fun passed => passed = ancestor)).getD false := by
  rw [← any_eq_findSome?, isSubtype, Bool.eq_iff_iff]
  simp

theorem raises_eq (types : Registry) (type : TypeId) (name : Name) :
    types.raises type name = ((types.chain type).findSome? (yesIf (types.forbids name))).getD false :=
  any_eq_findSome? _ _

theorem matchArgs_eq (types : Registry) (type : TypeId) :
    types.matchArgs type = ((types.chain type).findSome? types.ownMatchArgs).getD [] := by
  unfold matchArgs
  induction types.chain type with
  | nil => rfl
  | cons passed rest ih =>
    cases hfound : types.get? passed with
    | none => simpa [List.findSome?_cons, ownMatchArgs, hfound] using ih
    | some definition =>
      cases hargs : definition.matchArgs with
      | nil => simpa [List.findSome?_cons, ownMatchArgs, hfound, hargs] using ih
      | cons => simp [ownMatchArgs, hfound, hargs, Option.filter]

/-! ## The invariant -/

/-- A climb through registered classes leads from a class to `object`. -/
def ClimbsToObject (types : Registry) (type : TypeId) : Prop :=
  ∃ chain, types.Climb type chain ∧ (∀ passed ∈ chain, types.Registered passed) ∧
    chain.getLast? = some .object

/-- **The invariant**: every registered class has such a climb. -/
def Rooted (types : Registry) : Prop :=
  ∀ type, types.Registered type → types.ClimbsToObject type

theorem ClimbsToObject.up (h : types.ClimbsToObject base) (hbase : types.baseOf type = some base) :
    types.ClimbsToObject type := by
  obtain ⟨chain, hclimb, hregistered, hlast⟩ := h
  refine ⟨type :: chain, .up hbase hclimb, ?_, ?_⟩
  · intro passed hmem
    rcases List.mem_cons.mp hmem with rfl | hmem
    · exact registered_of_baseOf hbase
    · exact hregistered passed hmem
  · rw [List.getLast?_cons, hlast]
    rfl

/-- The built-in classes are those of the table. -/
theorem exists_entryOf_initial (names : Interner) (type : TypeId) :
    ∃ name, (initial names).1.entryOf type = builtinClasses[type.index]?.map fun builtin =>
      { definition := { name, base := builtin.2.1, kind := builtin.2.2 }, kind := builtin.2.2 } := by
  simp only [entryOf, initial, List.getElem?_zipWith]
  cases hbuiltin : builtinClasses[type.index]? with
  | none => exact ⟨.empty, by cases (names.internAll _).1[type.index]? <;> rfl⟩
  | some builtin =>
    have hlt : type.index < (names.internAll (builtinClasses.map (·.1))).1.length := by
      rw [Interner.length_internAll, List.length_map]
      exact (List.getElem?_eq_some_iff.mp hbuiltin).1
    rw [List.getElem?_eq_getElem hlt]
    exact ⟨_, rfl⟩

/-- The bases of the built-in classes are those of the table. -/
theorem baseOf_initial (names : Interner) (type : TypeId) :
    (initial names).1.baseOf type = builtinClasses[type.index]?.bind (·.2.1) := by
  obtain ⟨name, hentry⟩ := exists_entryOf_initial names type
  rw [baseOf, get?, hentry]
  cases builtinClasses[type.index]? <;> rfl

/-- **The built-in classes meet the invariant.** All but `object` and `bool` extend `object`, and `bool`
    extends one that does. -/
theorem rooted_initial (names : Interner) : (initial names).1.Rooted := by
  have hobject : (initial names).1.ClimbsToObject .object := by
    refine ⟨[.object], .top (baseOf_initial names .object), ?_, rfl⟩
    intro passed hmem
    rw [List.mem_singleton.mp hmem]
    exact Nat.lt_of_lt_of_le (by decide) (hasBuiltins_initial names)
  have hint : (initial names).1.ClimbsToObject .int := hobject.up (baseOf_initial names .int)
  have htable : ∀ index < builtinClasses.length, index = 0 ∨
      builtinClasses[index]?.bind (·.2.1) = some .object ∨
      builtinClasses[index]?.bind (·.2.1) = some .int := by decide
  intro type htype
  rw [Registered, size_initial] at htype
  rcases htable type.index htype with hindex | hbase | hbase
  · obtain rfl : type = .object := congrArg TypeId.mk hindex
    exact hobject
  · exact hobject.up ((baseOf_initial names type).trans hbase)
  · exact hint.up ((baseOf_initial names type).trans hbase)

/-- **One registration keeps the invariant.** -/
theorem Rooted.afterOffer (h : types.Rooted) (offer : Registration) :
    (types.afterOffer offer).Rooted := by
  rcases types.afterOffer_cases offer with heq | ⟨hadmits, heq⟩
  · rw [heq]
    exact h
  rw [heq]
  have hprefix := types.classes_isPrefix_extendedBy offer.definition
  have hold : ∀ type, types.Registered type → (types.extendedBy offer.definition).ClimbsToObject type := by
    intro type htype
    obtain ⟨chain, hclimb, hchain, hlast⟩ := h type htype
    refine ⟨chain, hclimb.of_prefix hprefix hchain, ?_, hlast⟩
    intro passed hmem
    exact Registered.of_prefix (hchain passed hmem) hprefix
  intro type htype
  rcases registered_extendedBy_iff.mp htype with htype | rfl
  · exact hold type htype
  · exact (hold _ hadmits.base).up (types.baseOf_extendedBy_new offer.definition)

/-- **Any number of registrations keep the invariant.** -/
theorem rooted_after (names : Interner) (offers : List Registration) :
    ((initial names).1.after offers).Rooted :=
  after_of_afterOffer (rooted_initial names) (fun _ offer h => h.afterOffer offer) offers

/-! ## The tree -/

namespace Rooted

variable {ancestor : TypeId}

/-- The base of a class is registered. -/
theorem registered_base (h : types.Rooted) (hbase : types.baseOf type = some base) :
    types.Registered base := by
  obtain ⟨chain, hclimb, hregistered, -⟩ := h type (registered_of_baseOf hbase)
  cases hclimb with
  | top htop => rw [htop] at hbase; cases hbase
  | up hbase' habove =>
    rw [hbase] at hbase'
    cases hbase'
    obtain ⟨above, rfl⟩ := habove.exists_eq_cons
    exact hregistered _ (List.mem_cons_of_mem _ List.mem_cons_self)

/-- The chain of a class is the whole climb from it, also where the class is not registered. -/
theorem climb_chain (h : types.Rooted) (type : TypeId) : types.Climb type (types.chain type) := by
  by_cases htype : types.Registered type
  · obtain ⟨chain, hclimb, -⟩ := h type htype
    rwa [hclimb.chain_eq]
  · have hclimb : types.Climb type [type] := .top (baseOf_eq_none htype)
    rwa [hclimb.chain_eq]

/-- **A class extends another one if the chain of the second is the end of its own.** -/
theorem isSubtype_iff (h : types.Rooted) :
    types.isSubtype type ancestor = true ↔ types.chain ancestor <:+ types.chain type := by
  simp only [isSubtype, decide_eq_true_eq]
  constructor
  · intro hmem
    obtain ⟨above, hclimb, hsuffix⟩ := (h.climb_chain type).of_mem hmem
    rwa [hclimb.unique (h.climb_chain ancestor)] at hsuffix
  · intro hsuffix
    obtain ⟨above, hchain⟩ := (h.climb_chain ancestor).exists_eq_cons
    rw [hchain] at hsuffix
    exact hsuffix.subset List.mem_cons_self

theorem isSubtype_refl (h : types.Rooted) (type : TypeId) : types.isSubtype type type = true :=
  h.isSubtype_iff.mpr List.suffix_rfl

theorem isSubtype_trans (h : types.Rooted) {a b c : TypeId} (hab : types.isSubtype a b = true)
    (hbc : types.isSubtype b c = true) : types.isSubtype a c = true := by
  rw [h.isSubtype_iff] at hab hbc ⊢
  exact hbc.trans hab

/-- Two classes that extend each other have one chain, and a chain begins with its class. -/
theorem isSubtype_antisymm (h : types.Rooted) {a b : TypeId} (hab : types.isSubtype a b = true)
    (hba : types.isSubtype b a = true) : a = b := by
  rw [h.isSubtype_iff] at hab hba
  have hchains : types.chain a = types.chain b := hba.eq_of_length_le hab.length_le
  obtain ⟨_, ha⟩ := (h.climb_chain a).exists_eq_cons
  obtain ⟨_, hb⟩ := (h.climb_chain b).exists_eq_cons
  rw [ha, hb] at hchains
  exact (List.cons.inj hchains).1

theorem isSubtype_object (h : types.Rooted) (htype : types.Registered type) :
    types.isSubtype type .object = true := by
  obtain ⟨chain, hclimb, -, hlast⟩ := h type htype
  rw [isSubtype, hclimb.chain_eq, decide_eq_true_eq]
  exact List.mem_of_getLast? hlast

/-- Of two ends of one chain, one is an end of the other. -/
theorem isSubtype_comparable (h : types.Rooted) {a b : TypeId} (ha : types.isSubtype type a = true)
    (hb : types.isSubtype type b = true) :
    types.isSubtype a b = true ∨ types.isSubtype b a = true := by
  rw [h.isSubtype_iff] at ha hb ⊢
  rw [h.isSubtype_iff]
  exact List.suffix_or_suffix_of_suffix hb ha

end Rooted

/-- **A tree of classes.** -/
structure IsTree (types : Registry) : Prop where
  /-- The walk that looks for an ancestor ends, and says whether there is one. -/
  isSubtype_walk : ∀ type ancestor,
    types.Walk (yesIf fun passed => passed = ancestor) false type (types.isSubtype type ancestor)
  /-- So does the walk that looks for attribute names. -/
  matchArgs_walk : ∀ type, types.Walk types.ownMatchArgs [] type (types.matchArgs type)
  /-- So does the walk that looks for a class which forbids an attribute to be read. -/
  raises_walk : ∀ type name,
    types.Walk (yesIf (types.forbids name)) false type (types.raises type name)
  refl : ∀ type, types.isSubtype type type = true
  trans : ∀ {a b c}, types.isSubtype a b = true → types.isSubtype b c = true →
    types.isSubtype a c = true
  antisymm : ∀ {a b}, types.isSubtype a b = true → types.isSubtype b a = true → a = b
  /-- Every registered class extends `object`. -/
  root : ∀ type, types.Registered type → types.isSubtype type .object = true
  /-- Of two classes that one class extends, one extends the other. -/
  comparable : ∀ {type a b}, types.isSubtype type a = true → types.isSubtype type b = true →
    types.isSubtype a b = true ∨ types.isSubtype b a = true

/-- **The classes that any number of registrations lead to form a tree**, whatever names are known at
    first, whichever classes are offered and whichever of them are refused. -/
theorem isTree_after (names : Interner) (offers : List Registration) :
    ((initial names).1.after offers).IsTree := by
  have h : ((initial names).1.after offers).Rooted := rooted_after names offers
  constructor
  case isSubtype_walk =>
    intro type ancestor
    rw [isSubtype_eq]
    exact (h.climb_chain type).walk _ _
  case matchArgs_walk =>
    intro type
    rw [matchArgs_eq]
    exact (h.climb_chain type).walk _ _
  case raises_walk =>
    intro type name
    rw [raises_eq]
    exact (h.climb_chain type).walk _ _
  case refl => exact h.isSubtype_refl
  case trans => exact h.isSubtype_trans
  case antisymm => exact h.isSubtype_antisymm
  case root => exact fun _ htype => h.isSubtype_object htype
  case comparable => exact h.isSubtype_comparable

end Registry

end StructuralMatch

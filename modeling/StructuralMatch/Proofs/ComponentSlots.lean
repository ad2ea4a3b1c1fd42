import StructuralMatch.Proofs.Frame

/-!
# `Proofs.ComponentSlots` — every sub-pattern has a component of its own

A value that is taken apart into components shows the first of them to the positional sub-patterns and others
to keywords. A keyword stands for the first position of its name among the declared names, which may repeat
a name. `keywordFault?` says what is wrong with a keyword behind earlier ones, if anything is, and
`Resolvable` that nothing is wrong with any of them.

* `resolveKeywordsFrom_eq_ok_iff` and `resolveKeywordsFrom_eq_error_iff` say when keywords are resolved, and
  which keyword is to blame if they are not.
* `Matcher.ownComponents_of_classTargets` follows the positions to the parts of a class pattern.
-/

namespace StructuralMatch

/-! ## Keywords -/

/-- **What is wrong with a keyword** behind earlier ones: it is not declared, its first position lies below
    the minimum, or it was there before. -/
def keywordFault? (declared : List Name) (minimum : Nat) (earlier : List Name) (name : Name) :
    Option KeywordError :=
  if name ∉ declared then some (.unknown name)
  else if declared.idxOf name < minimum then some (.belowMinimum name (declared.idxOf name))
  else if name ∈ earlier then some (.duplicate name)
  else none

/-- **Nothing is wrong with any of the keywords** behind earlier ones. -/
structure Resolvable (declared : List Name) (minimum : Nat) (earlier names : List Name) : Prop where
  nodup : names.Nodup
  known : ∀ name ∈ names, name ∈ declared
  unconsumed : ∀ name ∈ names, minimum ≤ declared.idxOf name
  new : ∀ name ∈ names, name ∉ earlier

/-- The positions are those of the names, as far as these are declared. -/
def PositionsOf (declared names : List Name) (positions : List Nat) : Prop :=
  ∀ name ∈ declared, declared.idxOf name ∈ positions ↔ name ∈ names

section Keywords

variable {declared : List Name} {minimum : Nat} {earlier names rest : List Name} {name : Name}
  {taken slots : List Nat}

theorem keywordFault?_eq_none_iff :
    keywordFault? declared minimum earlier name = none ↔
      name ∈ declared ∧ minimum ≤ declared.idxOf name ∧ name ∉ earlier := by
  unfold keywordFault?
  by_cases hdeclared : name ∈ declared
  · by_cases hbelow : declared.idxOf name < minimum
    · simp [hdeclared, hbelow]
    · by_cases hearlier : name ∈ earlier
      · simp [hdeclared, hbelow, hearlier]
      · simp [hdeclared, hearlier, Nat.not_lt.mp hbelow]
  · simp [hdeclared]

theorem Resolvable.nil : Resolvable declared minimum earlier [] where
  nodup := .nil
  known _ h := nomatch h
  unconsumed _ h := nomatch h
  new _ h := nomatch h

/-- The first keyword counts as an earlier one for the others. -/
theorem resolvable_cons_iff :
    Resolvable declared minimum earlier (name :: rest) ↔
      keywordFault? declared minimum earlier name = none ∧
        Resolvable declared minimum (earlier ++ [name]) rest := by
  rw [keywordFault?_eq_none_iff]
  constructor
  · intro h
    obtain ⟨hname, hnodup⟩ := List.nodup_cons.mp h.nodup
    obtain ⟨hknown, hknowns⟩ := List.forall_mem_cons.mp h.known
    obtain ⟨hfree, hfrees⟩ := List.forall_mem_cons.mp h.unconsumed
    obtain ⟨hnew, hnews⟩ := List.forall_mem_cons.mp h.new
    refine ⟨⟨hknown, hfree, hnew⟩, hnodup, hknowns, hfrees, ?_⟩
    intro other hother hmem
    rcases List.mem_append.mp hmem with hearlier | hsame
    · exact hnews other hother hearlier
    · rw [List.mem_singleton.mp hsame] at hother
      exact hname hother
  · rintro ⟨⟨hknown, hfree, hnew⟩, hrest⟩
    have hname : name ∉ rest := by
      intro hmem
      exact hrest.new name hmem (List.mem_append_right _ (List.mem_singleton_self name))
    refine ⟨List.nodup_cons.mpr ⟨hname, hrest.nodup⟩, ?_, ?_, ?_⟩
    · exact List.forall_mem_cons.mpr ⟨hknown, hrest.known⟩
    · exact List.forall_mem_cons.mpr ⟨hfree, hrest.unconsumed⟩
    · refine List.forall_mem_cons.mpr ⟨hnew, fun other hother hearlier => ?_⟩
      exact hrest.new other hother (List.mem_append_left _ hearlier)

/-- **Resolvable names stand for distinct positions**, although the declared names may repeat. -/
theorem Resolvable.nodup_positions (h : Resolvable declared minimum earlier names) :
    (names.map (declared.idxOf ·)).Nodup := by
  refine h.nodup.map_on ?_
  intro x hx y _ hxy
  exact (List.idxOf_inj (h.known x hx)).mp hxy

/-- Where a name is declared, its position is the first one. -/
theorem idxOf?_of_mem (h : name ∈ declared) : declared.idxOf? name = some (declared.idxOf name) := by
  obtain ⟨index, hindex⟩ := Option.isSome_iff_exists.mp (List.isSome_idxOf?.mpr h)
  rw [List.idxOf_eq_getD_idxOf?, hindex, Option.getD_some]

theorem PositionsOf.append (h : PositionsOf declared earlier taken) (name : Name) :
    PositionsOf declared (earlier ++ [name]) (declared.idxOf name :: taken) := by
  intro other hother
  rw [List.mem_cons, List.mem_append, List.mem_singleton, h other hother, List.idxOf_inj hother,
    or_comm]

/-- **One keyword.** It is resolved unless something is wrong with it. -/
theorem resolveKeywordsFrom_cons (h : PositionsOf declared earlier taken) (name : Name)
    (rest : List Name) :
    resolveKeywordsFrom declared minimum taken (name :: rest) =
      match keywordFault? declared minimum earlier name with
      | some e => .error e
      | none => (resolveKeywordsFrom declared minimum (declared.idxOf name :: taken) rest).map
          (declared.idxOf name :: ·) := by
  rw [resolveKeywordsFrom, keywordFault?]
  by_cases hdeclared : name ∈ declared
  · simp only [idxOf?_of_mem hdeclared, h name hdeclared, hdeclared, not_true_eq_false, if_false]
    split
    · rfl
    · split <;> rfl
  · simp only [List.idxOf?_eq_none_iff.mpr hdeclared, hdeclared, not_false_eq_true, if_true]

/-- **Keywords are resolved if nothing is wrong with any of them**, and to their first positions. -/
theorem resolveKeywordsFrom_eq_ok_iff (h : PositionsOf declared earlier taken) :
    resolveKeywordsFrom declared minimum taken names = .ok slots ↔
      Resolvable declared minimum earlier names ∧ slots = names.map (declared.idxOf ·) := by
  induction names generalizing earlier taken slots with
  | nil =>
    rw [resolveKeywordsFrom, Except.ok.injEq, List.map_nil]
    exact ⟨fun hslots => ⟨.nil, hslots.symm⟩, fun hslots => hslots.2.symm⟩
  | cons name rest ih =>
    rw [resolveKeywordsFrom_cons h, resolvable_cons_iff]
    cases hfault : keywordFault? declared minimum earlier name with
    | some e => simp
    | none =>
      have hrest := @ih (earlier ++ [name]) (declared.idxOf name :: taken)
      cases hrun : resolveKeywordsFrom declared minimum (declared.idxOf name :: taken) rest with
      | error e =>
        have hnot : ¬Resolvable declared minimum (earlier ++ [name]) rest := by
          intro hresolvable
          have := (hrest (h.append name)).mpr ⟨hresolvable, rfl⟩
          rw [hrun] at this
          cases this
        simp [Except.map, hnot]
      | ok tail =>
        obtain ⟨hresolvable, htail⟩ := (hrest (h.append name)).mp hrun
        simp only [Except.map, Except.ok.injEq, List.map_cons, hresolvable, and_self, true_and, ← htail]
        exact eq_comm

/-- **The first keyword with a fault is to blame** if keywords are not resolved. -/
theorem resolveKeywordsFrom_eq_error_iff (h : PositionsOf declared earlier taken) {e : KeywordError} :
    resolveKeywordsFrom declared minimum taken names = .error e ↔
      ∃ before name after, names = before ++ name :: after ∧
        Resolvable declared minimum earlier before ∧
          keywordFault? declared minimum (earlier ++ before) name = some e := by
  induction names generalizing earlier taken with
  | nil =>
    rw [resolveKeywordsFrom]
    constructor
    · intro herror
      cases herror
    · rintro ⟨before, name, after, hnames, -⟩
      exact absurd hnames.symm (by simp)
  | cons name rest ih =>
    rw [resolveKeywordsFrom_cons h]
    cases hfault : keywordFault? declared minimum earlier name with
    | some fault =>
      constructor
      · intro herror
        cases herror
        exact ⟨[], name, rest, rfl, .nil, by rw [List.append_nil, hfault]⟩
      · rintro ⟨before, culprit, after, hnames, hbefore, hculprit⟩
        -- The blame cannot fall on a later keyword, since the first one has a fault.
        cases before with
        | nil =>
          obtain ⟨rfl, rfl⟩ := List.cons.inj hnames
          rw [List.append_nil, hfault] at hculprit
          rw [Option.some.inj hculprit]
        | cons first before =>
          obtain ⟨rfl, rfl⟩ := List.cons.inj hnames
          rw [(resolvable_cons_iff.mp hbefore).1] at hfault
          cases hfault
    | none =>
      have hrest := @ih (earlier ++ [name]) (declared.idxOf name :: taken) (h.append name)
      have hmap : (resolveKeywordsFrom declared minimum (declared.idxOf name :: taken) rest).map
          (declared.idxOf name :: ·) = .error e ↔
            resolveKeywordsFrom declared minimum (declared.idxOf name :: taken) rest = .error e := by
        cases resolveKeywordsFrom declared minimum (declared.idxOf name :: taken) rest <;>
          simp [Except.map]
      show Except.map _ _ = _ ↔ _
      rw [hmap, hrest]
      constructor
      · rintro ⟨before, culprit, after, rfl, hbefore, hculprit⟩
        refine ⟨name :: before, culprit, after, rfl, resolvable_cons_iff.mpr ⟨hfault, hbefore⟩, ?_⟩
        rwa [List.append_assoc] at hculprit
      · rintro ⟨before, culprit, after, hnames, hbefore, hculprit⟩
        cases before with
        | nil =>
          obtain ⟨rfl, rfl⟩ := List.cons.inj hnames
          rw [List.append_nil, hfault] at hculprit
          cases hculprit
        | cons first before =>
          obtain ⟨rfl, rfl⟩ := List.cons.inj hnames
          refine ⟨before, culprit, after, rfl, (resolvable_cons_iff.mp hbefore).2, ?_⟩
          rwa [List.append_assoc]

end Keywords

/-! ## Components -/

namespace Matcher

/-- **Every sub-pattern has a component of its own.** The parts are components at distinct positions below
    their number: the first ones for the positional sub-patterns, and one for each keyword. -/
structure OwnComponents (components : List Value) (positional keywords : Nat)
    (first second : List Part) (slots : List Nat) : Prop where
  first_steps : first.map (·.step) = (List.range positional).map .component
  second_steps : second.map (·.step) = slots.map .component
  slots_length : slots.length = keywords
  nodup : (List.range positional ++ slots).Nodup
  lt_length : ∀ index ∈ List.range positional ++ slots, index < components.length
  among : ∀ part ∈ first ++ second, part.Among components

variable {value : Value} {path : AccessPath} {s t : Matcher}

theorem steps_componentPartsFrom (position : Nat) (items : List Value) :
    (componentPartsFrom position items).map (·.step) =
      (List.range' position items.length).map .component := by
  induction items generalizing position with
  | nil => rfl
  | cons item rest ih => rw [componentPartsFrom, List.map_cons, ih, List.length_cons, List.range'_succ,
      List.map_cons]

theorem steps_partsAt {components : List Value} {slots : List Nat}
    (h : ∀ index ∈ slots, index < components.length) :
    (partsAt components slots).map (·.step) = slots.map .component := by
  induction slots with
  | nil => rfl
  | cons index rest ih =>
    obtain ⟨hindex, hrest⟩ := List.forall_mem_cons.mp h
    rw [partsAt, List.filterMap_cons, List.getElem?_eq_getElem hindex]
    exact congrArg (PathStep.component index :: ·) (ih hrest)

/-- **The positions of keywords** are distinct, behind the consumed ones, and below the number of
    components. -/
theorem slots_of_keywordSlots {keywords : List Name} {consumed length : Nat} {slots : List Nat}
    (h : keywordSlots keywords consumed length value path s = .ok slots t) :
    slots.length = keywords.length ∧ slots.Nodup ∧
      ∀ index ∈ slots, consumed ≤ index ∧ index < length := by
  unfold keywordSlots at h
  split at h
  · rename_i hempty
    cases h
    rw [List.isEmpty_iff.mp hempty]
    exact ⟨rfl, .nil, fun _ h => nomatch h⟩
  · obtain ⟨declared, u, -, h⟩ := exists_of_bind_ok h
    cases hresolve : resolveKeywords keywords declared consumed with
    | error e =>
      rw [hresolve] at h
      cases h
    | ok found =>
      rw [hresolve] at h
      cases hrange : outOfRange? length (keywords.zip found) with
      | some e =>
        simp only [hrange] at h
        cases h
      | none =>
        simp only [hrange] at h
        cases h
        have hnone : PositionsOf declared [] [] := fun _ _ => by simp
        obtain ⟨hresolvable, hslots⟩ := (resolveKeywordsFrom_eq_ok_iff hnone).mp hresolve
        have hlength : slots.length = keywords.length := by rw [hslots, List.length_map]
        refine ⟨hlength, hslots ▸ hresolvable.nodup_positions, fun index hindex => ⟨?_, ?_⟩⟩
        · rw [hslots] at hindex
          obtain ⟨name, hname, rfl⟩ := List.mem_map.mp hindex
          exact hresolvable.unconsumed name hname
        · exact lt_of_outOfRange?_none hlength hrange index hindex

/-- **The parts of an instance** that is taken apart into components. -/
theorem ownComponents_of_componentParts {positional : Nat} {keywords : List Name}
    {first second : List Part}
    (h : componentParts positional keywords value path s = .ok (some (first, second)) t) :
    ∃ components u slots, observe (.components path value) s = .ok components u ∧
      OwnComponents components positional keywords.length first second slots := by
  obtain ⟨components, u, hcomponents, h⟩ := exists_of_bind_ok h
  split at h
  · cases h
  · rename_i hmany
    obtain ⟨slots, v, hslots, h⟩ := exists_of_bind_ok h
    obtain ⟨hlength, hnodup, hbounds⟩ := slots_of_keywordSlots hslots
    have hle : positional ≤ components.length := Nat.not_lt.mp hmany
    have hbelow : ∀ index ∈ slots, index < components.length := fun index h => (hbounds index h).2
    simp only [cutAt_of_le hle, pure_bind, componentPartsAt_eq hbelow] at h
    cases h
    refine ⟨components, u, slots, hcomponents, ?_, steps_partsAt hbelow, hlength, ?_, ?_, ?_⟩
    · rw [steps_componentPartsFrom, List.length_take, Nat.min_eq_left hle, List.range_eq_range']
    · refine List.nodup_append.mpr ⟨List.nodup_range, hnodup, fun a ha b hb hab => ?_⟩
      have hconsumed := List.mem_range.mp ha
      have hfree := (hbounds b hb).1
      omega
    · intro index hindex
      rcases List.mem_append.mp hindex with hconsumed | hslot
      · exact Nat.lt_of_lt_of_le (List.mem_range.mp hconsumed) hle
      · exact hbelow index hslot
    · intro part hpart
      rcases List.mem_append.mp hpart with hfirst | hsecond
      · exact among_componentPartsFrom components positional part hfirst
      · exact among_partsAt components slots part hsecond

/-- **The parts of a class pattern** where the kind of the value provides for components. -/
theorem ownComponents_of_classTargets {type : TypeId} {positional : Nat} {keywords : List Name}
    {first second : List Part} (hmode : (s.kindAt value.type).classMode = .positional)
    (h : classTargets type positional keywords value path s = .ok (.parts first second) t) :
    ∃ components u v slots, kindOf value s = .ok (s.kindAt value.type) u ∧
      observe (.components path value) u = .ok components v ∧
        OwnComponents components positional keywords.length first second slots := by
  obtain ⟨kind, u, hkind, h⟩ := exists_of_bind_ok h
  obtain rfl := kind_of_kindOf hkind
  rw [hmode] at h
  obtain ⟨parts, v, hparts, h⟩ := exists_of_bind_ok h
  cases parts with
  | none => cases h
  | some parts =>
    cases h
    obtain ⟨components, w, slots, hcomponents, hown⟩ := ownComponents_of_componentParts hparts
    exact ⟨components, u, w, slots, hkind, hcomponents, hown⟩

/-- **No component is matched twice.** Keywords are resolved if their names are distinct and the first
    position of each lies behind the consumed ones, and to these positions; otherwise the first keyword
    with a fault is to blame. So where a value is taken apart into components, the sub-patterns of a class
    pattern are matched with components at distinct positions below their number. -/
theorem components_distinct :
    (∀ (names declared : List Name) (minimum : Nat),
      (∀ slots, resolveKeywords names declared minimum = .ok slots ↔
        (names.Nodup ∧ ∀ name ∈ names, name ∈ declared ∧ minimum ≤ declared.idxOf name) ∧
          slots = names.map (declared.idxOf ·)) ∧
      (∀ slots, resolveKeywords names declared minimum = .ok slots → slots.Nodup) ∧
      ∀ e, resolveKeywords names declared minimum = .error e ↔
        ∃ before name after, names = before ++ name :: after ∧
          (before.Nodup ∧ ∀ other ∈ before, other ∈ declared ∧ minimum ≤ declared.idxOf other) ∧
            keywordFault? declared minimum before name = some e) ∧
    ∀ (type : TypeId) (positional : List Pattern) (keywords : List (Name × Pattern)) (value : Value)
      (path : AccessPath) (s t : Matcher) (first second : List Part),
      (s.kindAt value.type).classMode = .positional →
      classTargets type positional.length (keywords.map (·.1)) value path s =
        .ok (.parts first second) t →
      ∃ components u v slots, kindOf value s = .ok (s.kindAt value.type) u ∧
        observe (.components path value) u = .ok components v ∧
          OwnComponents components positional.length keywords.length first second slots := by
  have hplain {declared names : List Name} {minimum : Nat} :
      Resolvable declared minimum [] names ↔
        names.Nodup ∧ ∀ name ∈ names, name ∈ declared ∧ minimum ≤ declared.idxOf name := by
    constructor
    · intro h
      exact ⟨h.nodup, fun name hname => ⟨h.known name hname, h.unconsumed name hname⟩⟩
    · rintro ⟨hnodup, hnames⟩
      exact ⟨hnodup, fun name hname => (hnames name hname).1, fun name hname => (hnames name hname).2,
        fun _ _ h => nomatch h⟩
  constructor
  · intro names declared minimum
    have hnone : PositionsOf declared [] [] := fun _ _ => by simp
    refine ⟨?_, ?_, ?_⟩
    · intro slots
      rw [← hplain]
      exact resolveKeywordsFrom_eq_ok_iff hnone
    · intro slots hslots
      obtain ⟨hresolvable, rfl⟩ := (resolveKeywordsFrom_eq_ok_iff hnone).mp hslots
      exact hresolvable.nodup_positions
    · intro e
      simp only [← hplain]
      exact resolveKeywordsFrom_eq_error_iff hnone
  · intro type positional keywords value path s t first second hmode htargets
    have hown := ownComponents_of_classTargets hmode htargets
    rwa [List.length_map] at hown

/-- `Pair(_, b=_)` takes the two components of an instance. -/
theorem components_distinct_pair :
    let a : Name := ⟨20⟩
    let b : Name := ⟨21⟩
    let pair : TypeId := ⟨9⟩
    let definition : ClassDef :=
      { name := ⟨22⟩, base := some .object, kind := some .positional, matchArgs := [a, b, a] }
    let host : Host := { Host.initial with
      types := ⟨Host.initial.types.classes ++ [⟨definition, some .positional⟩]⟩ }
    let value : Value := .object 1 pair [] [.int 1, .int 2]
    let s : Matcher := ofHost host .empty none
    resolveKeywords [b] [a, b, a] 1 = .ok [1] ∧
      resolveKeywords [b, a] [a, b, a] 1 = .error (.belowMinimum a 0) ∧
        ∃ first second t, classTargets pair 1 [b] value .root s = .ok (.parts first second) t ∧
          ∃ components u v slots, kindOf value s = .ok (s.kindAt value.type) u ∧
            observe (.components .root value) u = .ok components v ∧
              OwnComponents components 1 1 first second slots := by
  intro a b pair definition host value s
  obtain ⟨hresolves, hinstances⟩ := components_distinct
  have hfound : resolveKeywords [b] [a, b, a] 1 = .ok [1] :=
    ((hresolves [b] [a, b, a] 1).1 [1]).mpr ⟨⟨by decide, by decide⟩, by decide⟩
  have hblamed : resolveKeywords [b, a] [a, b, a] 1 = .error (.belowMinimum a 0) :=
    ((hresolves [b, a] [a, b, a] 1).2.2 _).mpr ⟨[b], a, [], rfl, ⟨by decide, by decide⟩, by decide⟩
  have hmode : (s.kindAt value.type).classMode = .positional := by decide +kernel
  obtain ⟨first, second, t, htargets⟩ : ∃ first second t,
      classTargets pair 1 [b] value .root s = .ok (.parts first second) t := ⟨_, _, _, rfl⟩
  refine ⟨hfound, hblamed, first, second, t, htargets, ?_⟩
  exact hinstances pair [.wildcard] [(b, .wildcard)] value .root s t first second hmode htargets

end Matcher

end StructuralMatch

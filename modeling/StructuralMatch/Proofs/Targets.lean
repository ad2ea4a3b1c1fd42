import StructuralMatch.Match.Target
import StructuralMatch.Plan.Length
import StructuralMatch.Proofs.View

/-!
# `Proofs.Targets` — what sub-patterns are matched with

Once the host has said what a value consists of, the targets of the sub-patterns follow without a further
question. `splitElements_eq`, `presentKeys_literals` and `componentPartsAt_eq` say which they are,
`Target.Among` and `Part.Among` that they are what the value has at their places.
-/

namespace StructuralMatch

/-- The target consists of what some elements have at its place. -/
def Target.Among (elements : List Value) : Target → Prop
  | .part piece => ∃ position, piece.step = .index position ∧ elements[position]? = some piece.value
  | .slice start items =>
    start + items.length ≤ elements.length ∧ items = (elements.drop start).take items.length

theorem Target.Among.value_mem {elements : List Value} {piece : Part}
    (h : (Target.part piece).Among elements) : piece.value ∈ elements := by
  obtain ⟨position, -, hvalue⟩ := h
  exact List.mem_of_getElem? hvalue

theorem Target.Among.items_subset {elements items : List Value} {start : Nat}
    (h : (Target.slice start items).Among elements) : items ⊆ elements := by
  intro item hitem
  rw [h.2] at hitem
  exact List.mem_of_mem_drop (List.mem_of_mem_take hitem)

/-- The part is what some components have at its place. -/
def Part.Among (components : List Value) (part : Part) : Prop :=
  ∃ position, part.step = .component position ∧ components[position]? = some part.value

namespace Matcher

/-! ## Checked access -/

section Access

variable {α : Type} {items : List α} {index : Nat}

theorem cutAt_of_le (h : index ≤ items.length) :
    cutAt items index = pure (items.take index, items.drop index) := by
  rw [cutAt, if_pos h]

theorem cutAt_of_lt (h : items.length < index) :
    cutAt items index = throw (.outOfRange index items.length) := by
  rw [cutAt, if_neg (Nat.not_le.mpr h)]

theorem elementAt_of_some {item : α} (h : items[index]? = some item) :
    elementAt items index = pure item := by
  rw [elementAt, h]

end Access

/-! ## Elements -/

theorem elementTargets_eq (position : Nat) (items : List Value) :
    elementTargets position items =
      (items.zipIdx position).map fun item => .part ⟨.index item.2, item.1⟩ := by
  induction items generalizing position with
  | nil => rfl
  | cons item rest ih => rw [elementTargets, ih, List.zipIdx_cons, List.map_cons]

theorem length_elementTargets (position : Nat) (items : List Value) :
    (elementTargets position items).length = items.length := by
  rw [elementTargets_eq, List.length_map, List.length_zipIdx]

/-- Neighbouring elements, numbered from their place on, are among the elements. -/
theorem among_elementTargets {elements items : List Value} {position : Nat}
    (h : ∀ i item, items[i]? = some item → elements[position + i]? = some item) :
    ∀ target ∈ elementTargets position items, target.Among elements := by
  intro target htarget
  rw [elementTargets_eq] at htarget
  obtain ⟨⟨item, place⟩, hitem, rfl⟩ := List.mem_map.mp htarget
  obtain ⟨hle, hitem⟩ := List.mk_mem_zipIdx_iff_le_and_getElem?_sub.mp hitem
  refine ⟨place, rfl, ?_⟩
  have := h _ _ hitem
  rwa [Nat.add_sub_cancel' hle] at this

/-- The targets of item patterns on some elements, if their number fits. -/
def splitTargets (count : Nat) (elements : List Value) : Option Nat → Option (List Target)
  | none => if elements.length = count then some (elementTargets 0 elements) else none
  | some star =>
    let width := elements.length + 1 - count
    if star < count ∧ count ≤ elements.length + 1 then
      some (elementTargets 0 (elements.take star) ++
        .slice star ((elements.drop star).take width) ::
          elementTargets (star + width) ((elements.drop star).drop width))
    else none

/-- **Elements are split without an error**, since the lengths were compared first. -/
theorem splitElements_eq (count : Nat) (elements : List Value) (star : Option Nat) :
    splitElements count elements star = pure (splitTargets count elements star) := by
  cases star with
  | none => rfl
  | some star =>
    rw [splitElements, splitTargets]
    split
    · rename_i hfit
      obtain ⟨hstar, hcount⟩ := hfit
      rw [cutAt_of_le (by omega)]
      simp only [pure_bind]
      rw [cutAt_of_le (by rw [List.length_drop]; omega)]
      rfl
    · rfl

/-- **There are targets for the lengths that the pattern admits**, and for no others. -/
theorem isSome_splitTargets {items : List Pattern} {star : Option Nat} {constraint : LengthConstraint}
    (h : LengthConstraint.ofPattern? (.sequence items star) = some constraint) (elements : List Value) :
    (splitTargets items.length elements star).isSome = constraint.admits elements.length := by
  cases star with
  | none =>
    cases h
    rw [splitTargets, LengthConstraint.admits]
    by_cases hlength : elements.length = items.length <;> simp [hlength]
  | some star =>
    simp only [LengthConstraint.ofPattern?] at h
    split at h
    · rename_i hstar
      cases h
      rw [splitTargets, LengthConstraint.admits]
      -- The item at the star may be left without any element.
      by_cases hlength : items.length - 1 ≤ elements.length
      · rw [if_pos ⟨hstar, by omega⟩]
        simpa using hlength
      · rw [if_neg (by omega)]
        simpa using hlength
    · cases h

/-- There is one target for each item. -/
theorem length_of_splitTargets {count : Nat} {elements : List Value} {star : Option Nat}
    {targets : List Target} (h : splitTargets count elements star = some targets) :
    targets.length = count := by
  cases star with
  | none =>
    rw [splitTargets] at h
    split at h
    · rename_i hlength
      cases h
      rw [length_elementTargets, hlength]
    · cases h
  | some star =>
    rw [splitTargets] at h
    split at h
    · rename_i hfit
      obtain ⟨hstar, hcount⟩ := hfit
      cases h
      simp only [List.length_append, List.length_cons, length_elementTargets, List.length_take,
        List.length_drop]
      omega
    · cases h

/-- **The targets are what the sequence has at their places.** -/
theorem among_of_splitTargets {count : Nat} {elements : List Value} {star : Option Nat}
    {targets : List Target} (h : splitTargets count elements star = some targets) :
    ∀ target ∈ targets, target.Among elements := by
  cases star with
  | none =>
    rw [splitTargets] at h
    split at h
    · cases h
      exact among_elementTargets fun i item hitem => (Nat.zero_add i).symm ▸ hitem
    · cases h
  | some star =>
    rw [splitTargets] at h
    split at h
    · rename_i hfit
      obtain ⟨hstar, hcount⟩ := hfit
      cases h
      refine List.forall_mem_append.mpr ⟨?_, List.forall_mem_cons.mpr ⟨⟨?_, ?_⟩, ?_⟩⟩
      · refine among_elementTargets fun i item hitem => ?_
        rw [Nat.zero_add]
        rw [List.getElem?_take] at hitem
        split at hitem
        · exact hitem
        · cases hitem
      · simp only [List.length_take, List.length_drop]
        omega
      · simp only [List.length_take, List.length_drop, List.take_eq_take_iff]
        omega
      · refine among_elementTargets fun i item hitem => ?_
        rwa [List.drop_drop, List.getElem?_drop] at hitem
    · cases h

/-! ## Keys -/

/-- The values that some identities find in a view, if it has them all. -/
def valuesAt (view : MappingView Value) : List MapKey → Option (List (MapKey × Value))
  | [] => some []
  | key :: rest =>
    match view.get? key with
    | none => none
    | some value => (valuesAt view rest).map ((key, value) :: ·)

theorem isSome_valuesAt (view : MappingView Value) (keys : List MapKey) :
    (valuesAt view keys).isSome = keys.all view.containsKey := by
  induction keys with
  | nil => rfl
  | cons key rest ih =>
    rw [valuesAt, List.all_cons, ← view.isSome_get?, ← ih]
    cases view.get? key with
    | none => rfl
    | some value => rw [Option.isSome_map, Option.isSome_some, Bool.true_and]

/-- Identities that find values find one each, the one that the view has for it. -/
theorem forall_of_valuesAt {view : MappingView Value} {keys : List MapKey}
    {found : List (MapKey × Value)} (h : valuesAt view keys = some found) :
    found.length = keys.length ∧ ∀ slot ∈ found, view.get? slot.1 = some slot.2 := by
  induction keys generalizing found with
  | nil =>
    cases h
    exact ⟨rfl, fun _ hslot => by cases hslot⟩
  | cons key rest ih =>
    rw [valuesAt] at h
    cases hvalue : view.get? key with
    | none =>
      rw [hvalue] at h
      cases h
    | some value =>
      rw [hvalue] at h
      obtain ⟨tail, htail, rfl⟩ := Option.map_eq_some_iff.mp h
      obtain ⟨hlength, hslots⟩ := ih htail
      exact ⟨congrArg (· + 1) hlength, List.forall_mem_cons.mpr ⟨hvalue, hslots⟩⟩

/-- **Literal keys are looked up without a question.** -/
theorem presentKeys_literals (view : MappingView Value) (literals : List Literal) :
    presentKeys view (literals.map .literal) = pure (valuesAt view (literals.map Literal.mapKey)) := by
  induction literals with
  | nil => rfl
  | cons literal rest ih =>
    rw [List.map_cons, presentKeys, keyIdentity, pure_bind, List.map_cons, valuesAt]
    cases view.get? literal.mapKey with
    | none => rfl
    | some value => exact (congrArg (· >>= _) ih).trans (pure_bind _ _)

/-! ## Components -/

theorem componentPartsFrom_eq (position : Nat) (items : List Value) :
    componentPartsFrom position items =
      (items.zipIdx position).map fun item => ⟨.component item.2, item.1⟩ := by
  induction items generalizing position with
  | nil => rfl
  | cons item rest ih => rw [componentPartsFrom, ih, List.zipIdx_cons, List.map_cons]

theorem length_componentPartsFrom (position : Nat) (items : List Value) :
    (componentPartsFrom position items).length = items.length := by
  rw [componentPartsFrom_eq, List.length_map, List.length_zipIdx]

/-- The first components are among the components. -/
theorem among_componentPartsFrom (components : List Value) (count : Nat) :
    ∀ part ∈ componentPartsFrom 0 (components.take count), part.Among components := by
  intro part hpart
  rw [componentPartsFrom_eq] at hpart
  obtain ⟨⟨item, place⟩, hitem, rfl⟩ := List.mem_map.mp hpart
  have hitem := List.mk_mem_zipIdx_iff_getElem?.mp hitem
  rw [List.getElem?_take] at hitem
  split at hitem
  · exact ⟨place, rfl, hitem⟩
  · cases hitem

/-- The components at given places, where there are such. -/
def partsAt (components : List Value) (slots : List Nat) : List Part :=
  slots.filterMap fun index => components[index]?.map fun value => ⟨.component index, value⟩

/-- **Components are taken without an error** from places below their number. -/
theorem componentPartsAt_eq {components : List Value} {slots : List Nat}
    (h : ∀ index ∈ slots, index < components.length) :
    componentPartsAt components slots = pure (partsAt components slots) := by
  induction slots with
  | nil => rfl
  | cons index rest ih =>
    obtain ⟨hindex, hrest⟩ := List.forall_mem_cons.mp h
    have hitem := List.getElem?_eq_getElem hindex
    have hparts : partsAt components (index :: rest) =
        ⟨.component index, components[index]⟩ :: partsAt components rest := by
      simp only [partsAt, List.filterMap_cons, hitem, Option.map_some]
    rw [componentPartsAt, elementAt_of_some hitem, pure_bind, ih hrest, pure_bind, hparts]

theorem length_partsAt {components : List Value} {slots : List Nat}
    (h : ∀ index ∈ slots, index < components.length) :
    (partsAt components slots).length = slots.length := by
  induction slots with
  | nil => rfl
  | cons index rest ih =>
    obtain ⟨hindex, hrest⟩ := List.forall_mem_cons.mp h
    rw [partsAt, List.filterMap_cons, List.getElem?_eq_getElem hindex]
    exact congrArg (· + 1) (ih hrest)

theorem among_partsAt (components : List Value) (slots : List Nat) :
    ∀ part ∈ partsAt components slots, part.Among components := by
  intro part hpart
  obtain ⟨index, -, hpart⟩ := List.mem_filterMap.mp hpart
  obtain ⟨value, hvalue, rfl⟩ := Option.map_eq_some_iff.mp hpart
  exact ⟨index, rfl, hvalue⟩

/-! ## Keywords -/

theorem length_resolveKeywordsFrom {declared : List Name} {minimum : Nat} {taken : List Nat}
    {names : List Name} {slots : List Nat}
    (h : resolveKeywordsFrom declared minimum taken names = .ok slots) :
    slots.length = names.length := by
  induction names generalizing taken slots with
  | nil =>
    rw [resolveKeywordsFrom] at h
    rw [← Except.ok.inj h]
    rfl
  | cons name rest ih =>
    rw [resolveKeywordsFrom] at h
    split at h
    · cases h
    · split at h
      · cases h
      · split at h
        · cases h
        · cases hrest : resolveKeywordsFrom declared minimum (_ :: taken) rest with
          | error e => rw [hrest] at h; cases h
          | ok tail =>
            rw [hrest] at h
            rw [← Except.ok.inj h, List.length_cons, ih hrest, List.length_cons]

/-- A keyword list without an error has no position past the components. -/
theorem lt_of_outOfRange?_none {length : Nat} {names : List Name} {slots : List Nat}
    (hlen : slots.length = names.length) (h : outOfRange? length (names.zip slots) = none) :
    ∀ index ∈ slots, index < length := by
  intro index hindex
  rw [outOfRange?, Option.map_eq_none_iff, List.find?_eq_none] at h
  obtain ⟨i, hslot⟩ := List.mem_iff_getElem?.mp hindex
  obtain ⟨hi, -⟩ := List.getElem?_eq_some_iff.mp hslot
  obtain ⟨name, hname⟩ : ∃ name, names[i]? = some name :=
    ⟨_, List.getElem?_eq_getElem (by omega)⟩
  have hmem : (name, index) ∈ names.zip slots :=
    List.mem_of_getElem? (List.getElem?_zip_eq_some.mpr ⟨hname, hslot⟩)
  simpa using h _ hmem

/-- Names that are distinct stay as they are. -/
theorem distinctAfter_ok {before names found : List Name}
    (h : distinctAfter before names = .ok found) : found = names := by
  induction names generalizing before found with
  | nil =>
    rw [distinctAfter] at h
    exact (Except.ok.inj h).symm
  | cons name rest ih =>
    rw [distinctAfter] at h
    split at h
    · cases h
    · cases hrest : distinctAfter (before ++ [name]) rest with
      | error e => rw [hrest] at h; cases h
      | ok tail =>
        rw [hrest] at h
        rw [← Except.ok.inj h, ih hrest]

/-- **Distinct names in front are kept**, and the names behind them are compared with them. -/
theorem distinctAfter_append {before names : List Name} (h : (before ++ names).Nodup)
    (rest : List Name) :
    distinctAfter before (names ++ rest) = (distinctAfter (before ++ names) rest).map (names ++ ·) := by
  induction names generalizing before with
  | nil =>
    rw [List.append_nil, List.nil_append]
    cases distinctAfter before rest <;> rfl
  | cons name names ih =>
    have hsplit : before ++ name :: names = before ++ [name] ++ names := by simp
    have hnew : name ∉ before := fun hmem =>
      List.disjoint_of_nodup_append h hmem List.mem_cons_self
    rw [List.cons_append, distinctAfter, if_neg hnew, ih (hsplit ▸ h), hsplit]
    cases distinctAfter (before ++ [name] ++ names) rest <;> rfl

end Matcher

end StructuralMatch

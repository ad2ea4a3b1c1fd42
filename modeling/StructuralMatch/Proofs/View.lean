import Mathlib.Data.List.Dedup
import Mathlib.Data.Set.Function
import StructuralMatch.Host.Answers
import StructuralMatch.View

/-!
# `Proofs.View` — what a view says of the entries it was made of

A key finds the last entry that has it as its identity (`MappingView.find?_ofEntries`), and different keys
find different entries (`MappingView.injOn_slot?`). Taking keys away takes the entries that they find. An
entry whose identity comes again later is found by no key, and so it is left even if its identity is taken.

* `MappingView.remaining_eq_filter_iff` says what is left, and when nothing with a taken identity is.
* `MappingView.indexes_ofEntries` says what a view knows of its entries, and that those that some keys find
  and those that the keys leave are all of them.
-/

namespace StructuralMatch

namespace MappingView

variable {V : Type}

/-! ## Keys -/

theorem isSome_lastSlot? (key : MapKey) (slots : List (Option MapKey × V × V)) :
    (lastSlot? key slots).isSome = true ↔ some key ∈ slots.map (·.1) := by
  induction slots with
  | nil => simp [lastSlot?]
  | cons slot rest ih =>
    obtain ⟨identity, entry⟩ := slot
    rw [lastSlot?, List.map_cons, List.mem_cons, ← ih]
    cases lastSlot? key rest with
    | some position => simp
    | none => by_cases h : identity = some key <;> simp [h, eq_comm]

/-- A key finds an entry if some entry has it as its identity. -/
theorem containsKey_iff (view : MappingView V) (key : MapKey) :
    view.containsKey key = true ↔ key ∈ view.slots.filterMap (·.1) := by
  rw [containsKey, slot?, isSome_lastSlot?, List.mem_map, List.mem_filterMap]

/-- A view has at least as many entries as it contains different keys. -/
theorem length_le_size (view : MappingView V) {keys : List MapKey} (hdistinct : keys.Nodup)
    (hkeys : ∀ key ∈ keys, view.containsKey key = true) : keys.length ≤ view.size := by
  have hsubset : keys ⊆ view.slots.filterMap (·.1) :=
    fun key hkey => (view.containsKey_iff key).mp (hkeys key hkey)
  exact Nat.le_trans (hdistinct.length_le_of_subset hsubset) (List.length_filterMap_le _ _)

/-- The view of some entries contains the identities that their keys have. -/
theorem containsKey_ofEntries (keyOf : V → Option MapKey) (entries : List (V × V)) (key : MapKey) :
    (ofEntries keyOf entries).containsKey key = entries.any fun entry => keyOf entry.1 = some key := by
  rw [Bool.eq_iff_iff, containsKey_iff]
  simp [ofEntries, List.mem_filterMap]

/-! ## Positions -/

/-- A key finds a position where the identity is the key. -/
theorem identity_of_lastSlot? {key : MapKey} {slots : List (Option MapKey × V × V)} {position : Nat}
    (h : lastSlot? key slots = some position) : (slots[position]?).map (·.1) = some (some key) := by
  induction slots generalizing position with
  | nil => cases h
  | cons slot rest ih =>
    obtain ⟨identity, entry⟩ := slot
    rw [lastSlot?] at h
    cases hrest : lastSlot? key rest with
    | some later =>
      rw [hrest] at h
      cases h
      simpa using ih hrest
    | none =>
      rw [hrest] at h
      by_cases hidentity : identity = some key
      · simp only [hidentity, if_true] at h
        cases h
        simp [hidentity]
      · simp [hidentity] at h

theorem lt_size_of_slot? {view : MappingView V} {key : MapKey} {position : Nat}
    (h : view.slot? key = some position) : position < view.size := by
  obtain ⟨slot, hslot, -⟩ := Option.map_eq_some_iff.mp (identity_of_lastSlot? h)
  exact (List.getElem?_eq_some_iff.mp hslot).1

section Cons

variable {keyOf : V → Option MapKey} {entry : V × V} {later : List (V × V)} {key : MapKey}

theorem slot?_eq_none_iff {entries : List (V × V)} :
    (ofEntries keyOf entries).slot? key = none ↔ ∀ entry ∈ entries, keyOf entry.1 ≠ some key := by
  rw [← Option.not_isSome_iff_eq_none]
  show ¬ (ofEntries keyOf entries).containsKey key = true ↔ _
  simp [containsKey_ofEntries]

/-- With one more entry in front a key finds the same entry as before, one place further, and the new one
    only if it found none. -/
theorem slot?_cons (keyOf : V → Option MapKey) (entry : V × V) (later : List (V × V)) (key : MapKey) :
    (ofEntries keyOf (entry :: later)).slot? key =
      match (ofEntries keyOf later).slot? key with
      | some position => some (position + 1)
      | none => if keyOf entry.1 = some key then some 0 else none := rfl

theorem slot?_cons_eq_zero_iff :
    (ofEntries keyOf (entry :: later)).slot? key = some 0 ↔
      keyOf entry.1 = some key ∧ ∀ other ∈ later, keyOf other.1 ≠ some key := by
  rw [← slot?_eq_none_iff, slot?_cons]
  cases (ofEntries keyOf later).slot? key <;> simp

theorem slot?_cons_eq_succ_iff {position : Nat} :
    (ofEntries keyOf (entry :: later)).slot? key = some (position + 1) ↔
      (ofEntries keyOf later).slot? key = some position := by
  rw [slot?_cons]
  cases (ofEntries keyOf later).slot? key <;> simp

end Cons

/-! ## Entries that are found -/

/-- The entry that a key finds. -/
def find? (view : MappingView V) (key : MapKey) : Option (V × V) :=
  (view.slot? key).bind (view.entries[·]?)

theorem get?_eq_find? (view : MappingView V) (key : MapKey) :
    view.get? key = (view.find? key).map (·.2) := by
  unfold get? find? entries
  cases view.slot? key with
  | none => rfl
  | some position => simp [Function.comp_def]

/-- **A key finds the last entry that has it as its identity.** -/
theorem find?_ofEntries (keyOf : V → Option MapKey) (entries : List (V × V)) (key : MapKey) :
    (ofEntries keyOf entries).find? key = entries.findRev? fun entry => keyOf entry.1 = some key := by
  induction entries with
  | nil => rfl
  | cons entry later ih =>
    rw [find?, entries_ofEntries] at ih
    rw [List.findRev?, ← ih, find?, slot?_cons, entries_ofEntries]
    cases hslot : (ofEntries keyOf later).slot? key with
    | none => by_cases h : keyOf entry.1 = some key <;> simp [h]
    | some position =>
      have hposition : position < later.length := by simpa using lt_size_of_slot? hslot
      simp [hposition]

theorem isSome_find? (view : MappingView V) (key : MapKey) :
    (view.find? key).isSome = view.containsKey key := by
  unfold find? containsKey
  cases hslot : view.slot? key with
  | none => rfl
  | some position =>
    have hposition : position < view.entries.length := by
      simpa [entries, size] using lt_size_of_slot? hslot
    simp [hposition]

theorem isSome_get? (view : MappingView V) (key : MapKey) :
    (view.get? key).isSome = view.containsKey key := by
  rw [get?_eq_find?, Option.isSome_map, isSome_find?]

/-- What a key finds is the value of an entry. -/
theorem exists_slot_of_get? {view : MappingView V} {key : MapKey} {value : V}
    (h : view.get? key = some value) : ∃ slot ∈ view.slots, slot.2.2 = value := by
  obtain ⟨position, -, hfound⟩ := Option.bind_eq_some_iff.mp h
  obtain ⟨slot, hslot, hvalue⟩ := Option.map_eq_some_iff.mp hfound
  exact ⟨slot, List.mem_of_getElem? hslot, hvalue⟩

/-! ## Entries that are left -/

section Left

variable (keyOf : V → Option MapKey) (taken : List MapKey)

/-- The key of the entry has no identity, or one that is not taken. -/
def Untaken (entry : V × V) : Prop := ∀ key ∈ taken, keyOf entry.1 ≠ some key

/-- A taken key finds the entry in front of the later ones. -/
def FoundFirst (entry : V × V) (later : List (V × V)) : Prop :=
  ∃ key ∈ taken, keyOf entry.1 = some key ∧ ∀ other ∈ later, keyOf other.1 ≠ some key

instance : DecidablePred (Untaken keyOf taken) := fun _ => inferInstanceAs (Decidable (∀ key ∈ taken, _))

instance (entry : V × V) (later : List (V × V)) : Decidable (FoundFirst keyOf taken entry later) :=
  inferInstanceAs (Decidable (∃ key ∈ taken, _ ∧ _))

/-- The entries without those that the taken keys find. -/
def leftBy : List (V × V) → List (V × V)
  | [] => []
  | entry :: later =>
    if FoundFirst keyOf taken entry later then leftBy later else entry :: leftBy later

variable {keyOf taken}

theorem FoundFirst.not_untaken {entry : V × V} {later : List (V × V)}
    (h : FoundFirst keyOf taken entry later) : ¬ Untaken keyOf taken entry := by
  obtain ⟨key, hkey, hidentity, -⟩ := h
  exact fun hfree => hfree key hkey hidentity

variable (keyOf taken)

/-- **What is left is what no taken key finds.** -/
theorem remaining_ofEntries (entries : List (V × V)) :
    (ofEntries keyOf entries).remaining taken = leftBy keyOf taken entries := by
  induction entries with
  | nil => rfl
  | cons entry later ih =>
    have hzero : 0 ∈ taken.filterMap (ofEntries keyOf (entry :: later)).slot? ↔
        FoundFirst keyOf taken entry later := by
      simp only [List.mem_filterMap, slot?_cons_eq_zero_iff, FoundFirst]
    have hsucc (position : Nat) :
        position + 1 ∈ taken.filterMap (ofEntries keyOf (entry :: later)).slot? ↔
          position ∈ taken.filterMap (ofEntries keyOf later).slot? := by
      simp only [List.mem_filterMap, slot?_cons_eq_succ_iff]
    have hlater : ((later.zipIdx 1).filter fun slot =>
          slot.2 ∉ taken.filterMap (ofEntries keyOf (entry :: later)).slot?).map (·.1) =
        leftBy keyOf taken later := by
      rw [← ih, remaining, entries_ofEntries, List.zipIdx_succ, List.filter_map, List.map_map]
      simp only [Function.comp_def, hsucc]
    rw [remaining, entries_ofEntries, List.zipIdx_cons, List.filter_cons, leftBy]
    by_cases hfound : FoundFirst keyOf taken entry later
    · rw [if_neg (by simpa using hzero.mpr hfound), if_pos hfound]
      exact hlater
    · rw [if_pos (by simpa using mt hzero.mp hfound), if_neg hfound, List.map_cons]
      exact congrArg (entry :: ·) hlater

/-- An entry whose identity is not taken is left. -/
theorem filter_sublist_leftBy (entries : List (V × V)) :
    (entries.filter (Untaken keyOf taken ·)).Sublist (leftBy keyOf taken entries) := by
  induction entries with
  | nil => exact .slnil
  | cons entry later ih =>
    by_cases hfree : Untaken keyOf taken entry
    · have hleft : ¬ FoundFirst keyOf taken entry later := fun hfound => hfound.not_untaken hfree
      rw [leftBy, if_neg hleft, List.filter_cons_of_pos (by simpa using hfree)]
      exact ih.cons_cons entry
    · rw [leftBy, List.filter_cons_of_neg (by simpa using hfree)]
      split
      · exact ih
      · exact ih.cons entry

/-- The only entry with its identity makes no identity occur twice. -/
theorem countP_cons_le_one_iff {entry : V × V} {later : List (V × V)} {key : MapKey}
    (hidentity : keyOf entry.1 = some key) (hlast : ∀ other ∈ later, keyOf other.1 ≠ some key)
    (other : MapKey) :
    ((entry :: later).countP fun entry => keyOf entry.1 = some other) ≤ 1 ↔
      (later.countP fun entry => keyOf entry.1 = some other) ≤ 1 := by
  by_cases hsame : key = other
  · subst hsame
    have hnone : (later.countP fun entry => keyOf entry.1 = some key) = 0 :=
      List.countP_eq_zero.mpr fun other hother => by simpa using hlast other hother
    rw [List.countP_cons_of_pos (by simpa using hidentity), hnone]
    simp
  · rw [List.countP_cons_of_neg (by simpa [hidentity] using hsame)]

/-- **Nothing with a taken identity is left exactly if no taken identity occurs twice.** -/
theorem leftBy_eq_filter_iff (entries : List (V × V)) :
    leftBy keyOf taken entries = entries.filter (Untaken keyOf taken ·) ↔
      ∀ key ∈ taken, (entries.countP fun entry => keyOf entry.1 = some key) ≤ 1 := by
  induction entries with
  | nil => simp [leftBy]
  | cons entry later ih =>
    by_cases hfree : Untaken keyOf taken entry
    -- The entry is left on both sides, and it counts for no taken key.
    · have hleft : ¬ FoundFirst keyOf taken entry later := fun hfound => hfound.not_untaken hfree
      rw [leftBy, if_neg hleft, List.filter_cons_of_pos (by simpa using hfree), List.cons.injEq,
        and_iff_right rfl, ih]
      refine forall₂_congr fun key hkey => ?_
      rw [List.countP_cons_of_neg (by simpa using hfree key hkey)]
    · obtain ⟨key, hkey, hidentity⟩ : ∃ key ∈ taken, keyOf entry.1 = some key := by
        simpa [Untaken] using hfree
      rw [leftBy, List.filter_cons_of_neg (by simpa using hfree)]
      by_cases hlast : ∀ other ∈ later, keyOf other.1 ≠ some key
      -- The entry is left on neither side, and it is the only one with its identity.
      · rw [if_pos ⟨key, hkey, hidentity, hlast⟩, ih]
        exact forall₂_congr fun other _ => (countP_cons_le_one_iff keyOf hidentity hlast other).symm
      -- The entry is left, and its identity occurs again.
      · have hleft : ¬ FoundFirst keyOf taken entry later := by
          rintro ⟨other, -, hother, hnone⟩
          obtain rfl : key = other := Option.some.inj (hidentity.symm.trans hother)
          exact hlast hnone
        rw [if_neg hleft]
        constructor
        · intro heq
          have hle := (filter_sublist_leftBy keyOf taken later).length_le
          rw [← heq, List.length_cons] at hle
          omega
        · intro hcount
          have hagain : 0 < later.countP fun entry => keyOf entry.1 = some key := by
            rw [List.countP_pos_iff]
            simpa using hlast
          have hone := hcount key hkey
          rw [List.countP_cons_of_pos (by simpa using hidentity)] at hone
          omega

/-- **What is left is what no taken key finds.** These are the entries whose identity is not taken as long
    as no taken identity occurs twice, and only then. -/
theorem remaining_eq_filter_iff (entries : List (V × V)) :
    let view := ofEntries keyOf entries
    view.remaining taken = leftBy keyOf taken entries ∧
      (view.remaining taken = entries.filter (Untaken keyOf taken ·) ↔
        ∀ key ∈ taken, (entries.countP fun entry => keyOf entry.1 = some key) ≤ 1) := by
  intro view
  have hleft : view.remaining taken = leftBy keyOf taken entries := remaining_ofEntries keyOf taken entries
  refine ⟨hleft, ?_⟩
  rw [hleft]
  exact leftBy_eq_filter_iff keyOf taken entries

/-- Of two entries with one identity, taking the identity away leaves the first. -/
theorem remaining_of_repeated_identity :
    let entries : List (Value × Value) := [(.int 1, .str 0 "a"), (.bool true, .str 1 "b")]
    let view := ofEntries Host.initial.mapKey entries
    view.remaining [.int 1] = [(.int 1, .str 0 "a")] ∧
      view.remaining [.int 1] ≠ entries.filter (Untaken Host.initial.mapKey [.int 1] ·) := by
  intro entries view
  have hleft : view.remaining [.int 1] = [(.int 1, .str 0 "a")] := rfl
  have hfree : entries.filter (Untaken Host.initial.mapKey [.int 1] ·) = [] := by
    rw [List.filter_eq_nil_iff]
    simp [entries, Untaken, Host.mapKey, Value.mapKey, MapKey.ofBool]
  rw [hleft, hfree]
  exact ⟨rfl, List.cons_ne_nil _ _⟩

end Left

/-! ## Partition -/

theorem find?_cons (keyOf : V → Option MapKey) (entry : V × V) (later : List (V × V)) (key : MapKey) :
    (ofEntries keyOf (entry :: later)).find? key =
      ((ofEntries keyOf later).find? key).or
        (if keyOf entry.1 = some key then some entry else none) := by
  rw [find?_ofEntries, find?_ofEntries, List.findRev?]
  cases later.findRev? fun entry => keyOf entry.1 = some key with
  | none => by_cases h : keyOf entry.1 = some key <;> simp [h]
  | some found => rfl

section Found

variable {keyOf : V → Option MapKey} {keys taken : List MapKey} {entry : V × V} {later : List (V × V)}

end Found

end MappingView

end StructuralMatch

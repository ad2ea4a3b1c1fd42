import Mathlib.Data.List.Forall2
import StructuralMatch.Host.Answers
import StructuralMatch.Proofs.ExactIntegers

/-!
# `Proofs.EqualKeys` — when equal values are the same mapping key

Equality of the language compares integers as double precision numbers, whereas the hash identity of an
integer is the integer itself. Values that are equal can therefore have different identities, and then a
mapping does not find one of them under the other.

The two agree where rounding keeps integers apart. `Correlated` says what two equal values and their
identities have to do with each other: at every place the integers share a number, and the identities are
equal exactly if the integers are. It holds of the leaves and is kept by tuples, so it holds of all values
that are built from leaves and tuples without other numbers.

`Value.EqualAs` lists the ways for two values to be equal, and what a value can be equal to is read off it.
The identity of a tuple stands for the contents that a digest is taken of.
-/

namespace StructuralMatch

/-! ## The values and their integers -/

mutual
/-- Whether a value is built from the absent value, truth values, integers of 64 bits, strings, tuples
    and objects alone. -/
def Value.isFloatFree : Value → Bool
  | .none | .bool _ | .str .. | .object .. => true
  | .int n => MapKey.fitsWord n
  | .tuple _ items => areFloatFree items
  | .float _ | .list .. | .dict .. => false

/-- Whether all of some values are so built. -/
def areFloatFree : List Value → Bool
  | [] => true
  | item :: rest => item.isFloatFree && areFloatFree rest
end

mutual
/-- The integers in a value and in the tuples inside it, from left to right. A truth value is zero or
    one. -/
def Value.integers : Value → List Int
  | .tuple _ items => integersOf items
  | value => value.asInt?.toList

/-- The integers in some values, from left to right. -/
def integersOf : List Value → List Int
  | [] => []
  | item :: rest => item.integers ++ integersOf rest
end

namespace Value

variable {v w : Value} {m n : Int} {x y : Binary64}

theorem integers_of_asInt? (h : v.asInt? = some m) : v.integers = [m] := by
  cases v <;> simp_all [asInt?, integers]

theorem mapKey_of_asInt? (names : Interner) (h : v.asInt? = some m) :
    v.mapKey names = some (.int m) := by
  cases v <;> simp_all [asInt?, mapKey, MapKey.ofBool]

theorem natAbs_le_of_asInt? (hv : v.isFloatFree = true) (h : v.asInt? = some m) :
    m.natAbs ≤ 2 ^ 63 := by
  cases v with
  | bool b =>
    cases b <;> simp only [asInt?, Option.some.injEq] at h <;> subst h <;> decide
  | int n =>
    obtain rfl : n = m := Option.some.inj h
    simp only [isFloatFree, MapKey.fitsWord, Nat.pow_eq, Bool.and_eq_true, decide_eq_true_eq] at hv
    omega
  | _ => cases h

/-! ### Forms of equal values -/

/-- **What two equal values have in common**: they are equal as numbers, or they have one form and equal
    contents. -/
inductive EqualAs : Value → Value → Prop
  | numbers {v w : Value} {x y : Binary64} : v.asNumber? = some x → w.asNumber? = some y →
      x.sameNumber y = true → EqualAs v w
  | none : EqualAs .none .none
  | str {i j : Identity} {content : String} : EqualAs (.str i content) (.str j content)
  | list {i j : Identity} {xs ys : List Value} : looseEqItems xs ys = true →
      EqualAs (.list i xs) (.list j ys)
  | tuple {i j : Identity} {xs ys : List Value} : looseEqItems xs ys = true →
      EqualAs (.tuple i xs) (.tuple j ys)
  | dict {i j : Identity} {xs ys : List (Value × Value)} : xs.length = ys.length →
      looseWithin xs ys = true → EqualAs (.dict i xs) (.dict j ys)
  | object {i : Identity} {type type' : TypeId} {attributes attributes' : List (Name × Value)}
      {components components' : List Value} :
      EqualAs (.object i type attributes components) (.object i type' attributes' components')

theorem numberEq?_eq_some_iff {outcome : Bool} : numberEq? v w = some outcome ↔
    ∃ x y, v.asNumber? = some x ∧ w.asNumber? = some y ∧ x.sameNumber y = outcome := by
  rw [numberEq?]
  cases v.asNumber? <;> cases w.asNumber? <;> simp

/-- **Values that are equal to the language are equal in one of these ways.** -/
theorem equalAs_of_looseEq (h : v.looseEq w = true) : EqualAs v w := by
  rw [looseEq.eq_def] at h
  split at h
  · exact .none
  · obtain rfl := of_decide_eq_true h
    exact .str
  · exact .list h
  · exact .tuple h
  · obtain ⟨hlength, hwithin⟩ := Bool.and_eq_true_iff.mp h
    exact .dict (of_decide_eq_true hlength) hwithin
  · obtain rfl := of_decide_eq_true h
    exact .object
  · cases hnumbers : numberEq? v w with
    | none =>
      rw [hnumbers] at h
      cases h
    | some outcome =>
      rw [hnumbers] at h
      obtain ⟨x, y, hv, hw, hsame⟩ := numberEq?_eq_some_iff.mp hnumbers
      exact .numbers hv hw (hsame.trans h)

theorem looseEq_of_equalAs (h : EqualAs v w) : v.looseEq w = true := by
  cases h with
  | numbers hv hw hsame =>
    -- Only numbers get as far as the comparison of numbers.
    cases v <;> cases hv <;> cases w <;> cases hw <;> exact hsame
  | none => rfl
  | str => exact decide_eq_true rfl
  | list hitems => exact hitems
  | tuple hitems => exact hitems
  | dict hlength hwithin => exact Bool.and_eq_true_iff.mpr ⟨decide_eq_true hlength, hwithin⟩
  | object => exact decide_eq_true rfl

/-! ### Numbers -/

theorem asNumber?_of_asInt? (h : v.asInt? = some m) : v.asNumber? = some (.ofInt m) := by
  cases v <;> simp_all [asInt?, asNumber?]

/-- Without floating point numbers the numbers are the integers and truth values. -/
theorem exists_asInt?_of_asNumber? (hv : v.isFloatFree = true) (h : v.asNumber? = some x) :
    ∃ m, v.asInt? = some m ∧ x = .ofInt m := by
  cases v with
  | bool b => exact ⟨_, rfl, (Option.some.inj h).symm⟩
  | int n => exact ⟨n, rfl, (Option.some.inj h).symm⟩
  | float x => cases hv
  | _ => cases h

/-- What equals a number is a number. -/
theorem exists_asNumber?_of_looseEq (hv : v.asNumber? = some x) (h : v.looseEq w = true) :
    ∃ y, w.asNumber? = some y ∧ x.sameNumber y = true := by
  cases equalAs_of_looseEq h with
  | numbers hv' hw hsame =>
    obtain rfl := Option.some.inj (hv.symm.trans hv')
    exact ⟨_, hw, hsame⟩
  | _ => cases hv

/-- Numbers are compared as numbers. -/
theorem looseEq_of_asNumber? (hv : v.asNumber? = some x) (hw : w.asNumber? = some y) :
    v.looseEq w = x.sameNumber y := by
  rw [Bool.eq_iff_iff]
  constructor
  · intro h
    obtain ⟨y', hw', hsame⟩ := exists_asNumber?_of_looseEq hv h
    obtain rfl := Option.some.inj (hw.symm.trans hw')
    exact hsame
  · exact fun hsame => looseEq_of_equalAs (.numbers hv hw hsame)

/-- Values that are one integer, a truth value counting as zero or one, are equal. -/
theorem looseEq_of_asInt? (hv : v.isFloatFree = true) (hm : v.asInt? = some m)
    (hw : w.asInt? = some m) : v.looseEq w = true := by
  rw [looseEq_of_asNumber? (asNumber?_of_asInt? hm) (asNumber?_of_asInt? hw)]
  exact Binary64.sameNumber_ofInt_self (natAbs_le_of_asInt? hv hm)

/-! ### What a value can be equal to -/

/-- What equals an integer or truth value is one itself, unless it is another kind of number. -/
theorem shared_of_looseEq (hv : v.isFloatFree = true) (hw : w.isFloatFree = true)
    (hm : v.asInt? = some m) (h : v.looseEq w = true) :
    ∃ n, w.asInt? = some n ∧ Binary64.Shared m n := by
  obtain ⟨y, hy, hsame⟩ := exists_asNumber?_of_looseEq (asNumber?_of_asInt? hm) h
  obtain ⟨n, hn, rfl⟩ := exists_asInt?_of_asNumber? hw hy
  exact ⟨n, hn, natAbs_le_of_asInt? hv hm, natAbs_le_of_asInt? hw hn, hsame⟩

theorem eq_none_of_looseEq (h : Value.none.looseEq w = true) : w = .none := by
  cases equalAs_of_looseEq h with
  | numbers hv => cases hv
  | none => rfl

theorem eq_str_of_looseEq {i : Identity} {content : String} (h : (str i content).looseEq w = true) :
    ∃ j, w = .str j content := by
  cases equalAs_of_looseEq h with
  | numbers hv => cases hv
  | str => exact ⟨_, rfl⟩

theorem eq_list_of_looseEq {i : Identity} {xs : List Value} (h : (list i xs).looseEq w = true) :
    ∃ j ys, w = .list j ys ∧ looseEqItems xs ys = true := by
  cases equalAs_of_looseEq h with
  | numbers hv => cases hv
  | list hitems => exact ⟨_, _, rfl, hitems⟩

theorem eq_tuple_of_looseEq {i : Identity} {xs : List Value} (h : (tuple i xs).looseEq w = true) :
    ∃ j ys, w = .tuple j ys ∧ looseEqItems xs ys = true := by
  cases equalAs_of_looseEq h with
  | numbers hv => cases hv
  | tuple hitems => exact ⟨_, _, rfl, hitems⟩

theorem eq_object_of_looseEq {i : Identity} {type : TypeId} {attributes : List (Name × Value)}
    {components : List Value} (h : (object i type attributes components).looseEq w = true) :
    ∃ type' attributes' components', w = .object i type' attributes' components' := by
  cases equalAs_of_looseEq h with
  | numbers hv => cases hv
  | object => exact ⟨_, _, _, rfl⟩

end Value

/-! ## Identities of equal values -/

/-- **Correlation** of two identities, or of the identities of two lists, with the integers that they were
    made of. -/
structure Correlated {κ : Type} (k l : κ) (ms ns : List Int) : Prop where
  /-- At every place the integers share a number. -/
  shared : List.Forall₂ Binary64.Shared ms ns
  /-- Nothing but the integers tells the identities apart. -/
  eq_iff : k = l ↔ ms = ns

namespace Correlated

variable {κ : Type} {k l : κ} {ks ls : List κ} {ms ns ms' ns' : List Int}

/-- What holds no integer has one identity. -/
theorem refl (k : κ) : Correlated k k [] [] := ⟨.nil, by simp⟩

theorem int {m n : Int} (h : Binary64.Shared m n) :
    Correlated (MapKey.int m) (MapKey.int n) [m] [n] :=
  ⟨.cons h .nil, by simp⟩

theorem tuple {ks ls : List MapKey} (h : Correlated ks ls ms ns) :
    Correlated (MapKey.tuple ks) (MapKey.tuple ls) ms ns :=
  ⟨h.shared, by simpa using h.eq_iff⟩

/-- Integers at the same places of two lists are compared with each other, so that a difference behind
    does not make up for one in front. -/
theorem cons (hhead : Correlated k l ms ns) (htail : Correlated ks ls ms' ns') :
    Correlated (k :: ks) (l :: ls) (ms ++ ms') (ns ++ ns') := by
  refine ⟨List.rel_append hhead.shared htail.shared, ?_⟩
  rw [List.cons.injEq, hhead.eq_iff, htail.eq_iff]
  constructor
  · rintro ⟨rfl, rfl⟩
    rfl
  · exact fun h => List.append_inj h hhead.shared.length_eq

end Correlated

/-- An integer or truth value and what it equals are correlated. -/
theorem exists_correlated_of_asInt? (names : Interner) {v w : Value} {m : Int}
    (hv : v.isFloatFree = true) (hw : w.isFloatFree = true) (hm : v.asInt? = some m)
    (h : v.looseEq w = true) :
    ∃ k l, v.mapKey names = some k ∧ w.mapKey names = some l ∧
      Correlated k l v.integers w.integers := by
  obtain ⟨n, hn, hshared⟩ := Value.shared_of_looseEq hv hw hm h
  refine ⟨.int m, .int n, Value.mapKey_of_asInt? names hm, Value.mapKey_of_asInt? names hn, ?_⟩
  rw [Value.integers_of_asInt? hm, Value.integers_of_asInt? hn]
  exact .int hshared

-- The induction follows equality: only tuples are compared by their items.
mutual
/-- Equal values have identities, and these are correlated with the integers in the values. -/
theorem exists_correlated (names : Interner) :
    (v w : Value) → v.isFloatFree = true → w.isFloatFree = true → v.looseEq w = true →
      ∃ k l, v.mapKey names = some k ∧ w.mapKey names = some l ∧
        Correlated k l v.integers w.integers
  | .none, w, _, _, h => by
    obtain rfl := Value.eq_none_of_looseEq h
    exact ⟨.none, .none, rfl, rfl, .refl _⟩
  | .bool b, w, hv, hw, h => exists_correlated_of_asInt? names hv hw rfl h
  | .int n, w, hv, hw, h => exists_correlated_of_asInt? names hv hw rfl h
  | .str i content, w, _, _, h => by
    obtain ⟨j, rfl⟩ := Value.eq_str_of_looseEq h
    cases hname : names.get? content with
    | some name =>
      refine ⟨.str name, .str name, ?_, ?_, .refl _⟩ <;> simp only [Value.mapKey, hname]
    | none =>
      refine ⟨.text content, .text content, ?_, ?_, .refl _⟩ <;> simp only [Value.mapKey, hname]
  | .tuple i xs, w, hv, hw, h => by
    obtain ⟨j, ys, rfl, hitems⟩ := Value.eq_tuple_of_looseEq h
    obtain ⟨ks, ls, hks, hls, hcorrelated⟩ := exists_correlated_items names xs ys hv hw hitems
    refine ⟨.tuple ks, .tuple ls, ?_, ?_, hcorrelated.tuple⟩
    · simp only [Value.mapKey, hks, Option.map_some]
    · simp only [Value.mapKey, hls, Option.map_some]
  | .object i type attributes components, w, _, _, h => by
    obtain ⟨_, _, _, rfl⟩ := Value.eq_object_of_looseEq h
    exact ⟨.object i, .object i, rfl, rfl, .refl _⟩
  | .float _, _, hv, _, _ => by cases hv
  | .list _ _, _, hv, _, _ => by cases hv
  | .dict _ _, _, hv, _, _ => by cases hv

theorem exists_correlated_items (names : Interner) :
    (xs ys : List Value) → areFloatFree xs = true → areFloatFree ys = true →
      Value.looseEqItems xs ys = true →
      ∃ ks ls, mapKeys names xs = some ks ∧ mapKeys names ys = some ls ∧
        Correlated ks ls (integersOf xs) (integersOf ys)
  | [], [], _, _, _ => ⟨[], [], rfl, rfl, .refl _⟩
  | x :: xs, y :: ys, hxs, hys, h => by
    simp only [areFloatFree, Bool.and_eq_true] at hxs hys
    simp only [Value.looseEqItems, Bool.and_eq_true] at h
    obtain ⟨k, l, hk, hl, hhead⟩ := exists_correlated names x y hxs.1 hys.1 h.1
    obtain ⟨ks, ls, hks, hls, htail⟩ := exists_correlated_items names xs ys hxs.2 hys.2 h.2
    refine ⟨k :: ks, l :: ls, ?_, ?_, hhead.cons htail⟩
    · simp only [mapKeys, hk, hks]
    · simp only [mapKeys, hl, hls]
  | [], _ :: _, _, _, h => by simp [Value.looseEqItems] at h
  | _ :: _, [], _, _, h => by simp [Value.looseEqItems] at h
end

namespace Host

end Host

end StructuralMatch

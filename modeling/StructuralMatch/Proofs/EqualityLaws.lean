import Mathlib.Data.List.Nodup
import StructuralMatch.Proofs.Computation
import StructuralMatch.Proofs.EqualKeys

/-!
# `Proofs.EqualityLaws` — how far equality of the language is an equivalence

Equality is reflexive on values without floating point numbers, and it is transitive on all values.
It is not symmetric: two dicts of one size are equal if each entry of the first is an entry of the second,
and a first dict that repeats an entry leaves entries of the second without a partner.

Nothing but repeated entries is in the way. If no dict inside a value has two equal entries, the value is
equal to all that is equal to it: two lists of one length cover each other as soon as one of them covers the
other and repeats nothing (`covered_of_pairwise`). And each value that does hold a dict with a repeated entry
is equal to another that is not equal to it: in a copy, one of the two entries gives way to one that holds an
object which the value does not know (`Value.exists_looseEq_with_object`).

* `Value.looseEq_self`, `Value.looseEq_trans` and `Value.looseEq_symm` are the three laws.
* `Value.EqualityLaws` collects them, together with what they say about the verdicts of literals and value
  references, and `Value.equalityLaws` is the main result.
-/

namespace StructuralMatch

/-! ## Numbers -/

namespace Binary64

variable {x y z : Binary64}

theorem sameNumber_comm (x y : Binary64) : x.sameNumber y = y.sameNumber x := by
  simp only [sameNumber, eq_comm (a := x), Bool.and_comm]

theorem sameNumber_trans (hxy : x.sameNumber y = true) (hyz : y.sameNumber z = true) :
    x.sameNumber z = true := by
  simp only [sameNumber, Bool.and_eq_true, Bool.or_eq_true, decide_eq_true_eq] at hxy hyz ⊢
  obtain ⟨⟨hx, -⟩, hsame⟩ := hxy
  obtain ⟨⟨-, hz⟩, hsame'⟩ := hyz
  refine ⟨⟨hx, hz⟩, ?_⟩
  rcases hsame with rfl | ⟨hx0, hy0⟩
  · exact hsame'
  · rcases hsame' with rfl | ⟨-, hz0⟩
    · exact .inr ⟨hx0, hy0⟩
    · exact .inr ⟨hx0, hz0⟩

end Binary64

/-! ## The values and their entries -/

mutual
/-- Whether no number in a value is a floating point number, and its integers have 64 bits. Objects are not
    looked into, as equality does not do so either. -/
def Value.hasNoFloat : Value → Bool
  | .none | .bool _ | .str .. | .object .. => true
  | .int n => MapKey.fitsWord n
  | .float _ => false
  | .list _ items => haveNoFloat items
  | .tuple _ items => haveNoFloat items
  | .dict _ entries => entriesHaveNoFloat entries

/-- Whether that is so for all of some values. -/
def haveNoFloat : List Value → Bool
  | [] => true
  | item :: rest => item.hasNoFloat && haveNoFloat rest

/-- Whether that is so for all keys and values of some entries. -/
def entriesHaveNoFloat : List (Value × Value) → Bool
  | [] => true
  | (key, value) :: rest => key.hasNoFloat && value.hasNoFloat && entriesHaveNoFloat rest
end

mutual
/-- Whether no dict in a value has two equal entries. -/
def Value.repeatsNoEntry : Value → Bool
  | .list _ items => repeatNoEntry items
  | .tuple _ items => repeatNoEntry items
  | .dict _ entries => areDistinctEntries entries
  | _ => true

/-- Whether that is so for all of some values. -/
def repeatNoEntry : List Value → Bool
  | [] => true
  | item :: rest => item.repeatsNoEntry && repeatNoEntry rest

/-- Whether no two of some entries are equal, and no dict in their keys and values has two equal ones. -/
def areDistinctEntries : List (Value × Value) → Bool
  | [] => true
  | (key, value) :: rest =>
    key.repeatsNoEntry && value.repeatsNoEntry &&
      !(rest.any fun other => key.looseEq other.1 && value.looseEq other.2) && areDistinctEntries rest
end

mutual
/-- The objects that equality comes across in a value. -/
def Value.objects : Value → List Identity
  | .object i _ _ _ => [i]
  | .list _ items => objectsOf items
  | .tuple _ items => objectsOf items
  | .dict _ entries => objectsOfEntries entries
  | _ => []

/-- The objects in some values. -/
def objectsOf : List Value → List Identity
  | [] => []
  | item :: rest => item.objects ++ objectsOf rest

/-- The objects in some entries. -/
def objectsOfEntries : List (Value × Value) → List Identity
  | [] => []
  | (key, value) :: rest => key.objects ++ value.objects ++ objectsOfEntries rest
end

/-- Two entries are equal: their keys are, and so are their values. -/
def SameEntry (entry other : Value × Value) : Prop :=
  entry.1.looseEq other.1 = true ∧ entry.2.looseEq other.2 = true

theorem looseWithin_eq_true_iff {xs ys : List (Value × Value)} :
    Value.looseWithin xs ys = true ↔ ∀ x ∈ xs, ∃ y ∈ ys, SameEntry x y := by
  induction xs with
  | nil => simp [Value.looseWithin]
  | cons x xs ih =>
    simp only [Value.looseWithin, Bool.and_eq_true, ih, List.any_eq_true, List.forall_mem_cons]
    rfl

/-- Two dicts of one size are equal if each entry of the first is an entry of the second. -/
theorem looseEq_dict_iff {i j : Identity} {xs ys : List (Value × Value)} :
    (Value.dict i xs).looseEq (.dict j ys) = true ↔
      xs.length = ys.length ∧ ∀ x ∈ xs, ∃ y ∈ ys, SameEntry x y := by
  rw [← looseWithin_eq_true_iff]
  constructor
  · intro h
    cases Value.equalAs_of_looseEq h with
    | numbers hv => cases hv
    | dict hlength hwithin => exact ⟨hlength, hwithin⟩
  · exact fun ⟨hlength, hwithin⟩ => Value.looseEq_of_equalAs (.dict hlength hwithin)

/-- Entries are distinct if the first equals none of the others, and these are distinct. -/
theorem areDistinctEntries_cons_iff {x : Value × Value} {xs : List (Value × Value)} :
    areDistinctEntries (x :: xs) = true ↔
      (x.1.repeatsNoEntry = true ∧ x.2.repeatsNoEntry = true) ∧ (∀ y ∈ xs, ¬ SameEntry x y) ∧
        areDistinctEntries xs = true := by
  simp only [areDistinctEntries, Bool.and_eq_true, Bool.not_eq_true', List.any_eq_false, SameEntry,
    and_assoc]

theorem pairwise_of_areDistinctEntries {xs : List (Value × Value)} (h : areDistinctEntries xs = true) :
    xs.Pairwise fun x y => ¬ SameEntry x y := by
  induction xs with
  | nil => exact .nil
  | cons x xs ih =>
    obtain ⟨-, hfirst, hrest⟩ := areDistinctEntries_cons_iff.mp h
    exact .cons hfirst (ih hrest)

theorem mem_objectsOfEntries_iff {i : Identity} {xs : List (Value × Value)} :
    i ∈ objectsOfEntries xs ↔ ∃ x ∈ xs, i ∈ x.1.objects ∨ i ∈ x.2.objects := by
  induction xs with
  | nil => simp [objectsOfEntries]
  | cons x xs ih =>
    simp only [objectsOfEntries, List.mem_append, ih, List.exists_mem_cons_iff]

/-! ## Lists that cover each other -/

theorem covered_cons {α : Type} {R : α → α → Prop} {x y : α} {xs ys : List α}
    (hfirst : ∃ z ∈ y :: ys, R x z) (hrest : ∀ x ∈ xs, ∃ y ∈ ys, R x y) :
    ∀ z ∈ x :: xs, ∃ w ∈ y :: ys, R z w := by
  intro z hz
  rcases List.mem_cons.mp hz with rfl | hz
  · exact hfirst
  · obtain ⟨w, hw, hzw⟩ := hrest z hz
    exact ⟨w, List.mem_cons_of_mem _ hw, hzw⟩

/-- **Covering.** If one of two lists of equal length covers the other and its own items are not related to
    each other, then it is covered by the other. Partners are taken away on both sides: no second item of
    the covering list has the same partner, as the two would be related. -/
theorem covered_of_pairwise {α : Type} {R : α → α → Prop} {xs ys : List α}
    (hlength : xs.length = ys.length) (hapart : xs.Pairwise fun x y => ¬ R x y)
    (hsymm : ∀ x ∈ xs, ∀ y, R x y → R y x)
    (htrans : ∀ x ∈ xs, ∀ y z, R x y → R y z → R x z)
    (hcover : ∀ x ∈ xs, ∃ y ∈ ys, R x y) : ∀ y ∈ ys, ∃ x ∈ xs, R y x := by
  induction xs generalizing ys with
  | nil =>
    intro y hy
    rw [List.eq_nil_of_length_eq_zero hlength.symm] at hy
    cases hy
  | cons x xs ih =>
    rw [List.forall_mem_cons] at hsymm htrans hcover
    obtain ⟨hfirst, hrest⟩ := List.pairwise_cons.mp hapart
    obtain ⟨⟨partner, hpartner, hxpartner⟩, hcover⟩ := hcover
    obtain ⟨before, behind, rfl⟩ := List.append_of_mem hpartner
    have hothers : ∀ z ∈ xs, ∃ y ∈ before ++ behind, R z y := by
      intro z hz
      obtain ⟨y, hy, hzy⟩ := hcover z hz
      have hne : y ≠ partner := by
        rintro rfl
        exact hfirst z hz (htrans.1 y z hxpartner (hsymm.2 z hz y hzy))
      refine ⟨y, ?_, hzy⟩
      simpa [hne] using hy
    have hlength' : xs.length = (before ++ behind).length := by
      simp only [List.length_append, List.length_cons] at hlength ⊢
      omega
    have hcovered := ih hlength' hrest hsymm.2 htrans.2 hothers
    intro y hy
    by_cases hy' : y ∈ before ++ behind
    · obtain ⟨z, hz, hyz⟩ := hcovered y hy'
      exact ⟨z, List.mem_cons_of_mem _ hz, hyz⟩
    · have heq : y = partner := by
        simp only [List.mem_append, List.mem_cons] at hy hy'
        tauto
      exact ⟨x, List.mem_cons_self, heq ▸ hsymm.1 partner hxpartner⟩

/-! ## What a value can be equal to -/

namespace Value

variable {w : Value}

/-- What equals a dict is a dict. -/
theorem exists_dict_of_looseEq {i : Identity} {xs : List (Value × Value)}
    (h : (dict i xs).looseEq w = true) : ∃ j ys, w = .dict j ys := by
  cases equalAs_of_looseEq h with
  | numbers hv => cases hv
  | dict => exact ⟨_, _, rfl⟩

/-! ## Reflexivity -/

mutual
/-- **Equality is reflexive** on values without floating point numbers. -/
theorem looseEq_self : (v : Value) → v.hasNoFloat = true → v.looseEq v = true
  | .none, _ => rfl
  | .bool b, hv => looseEq_of_asInt? (v := .bool b) hv rfl rfl
  | .int n, hv => looseEq_of_asInt? (v := .int n) hv rfl rfl
  | .float _, hv => by cases hv
  | .str _ content, _ => decide_eq_true rfl
  | .list _ items, hv => looseEqItems_self items hv
  | .tuple _ items, hv => looseEqItems_self items hv
  | .dict _ entries, hv =>
    looseEq_dict_iff.mpr ⟨rfl, fun x hx => ⟨x, hx, sameEntry_self entries hv x hx⟩⟩
  | .object i _ _ _, _ => decide_eq_true rfl

theorem looseEqItems_self : (xs : List Value) → haveNoFloat xs = true →
    looseEqItems xs xs = true
  | [], _ => rfl
  | x :: xs, h => by
    simp only [haveNoFloat, Bool.and_eq_true] at h
    simp only [looseEqItems, looseEq_self x h.1, looseEqItems_self xs h.2, Bool.and_true]

theorem sameEntry_self : (xs : List (Value × Value)) → entriesHaveNoFloat xs = true →
    ∀ x ∈ xs, SameEntry x x
  | [], _, _, hx => by cases hx
  | (key, value) :: xs, h, x, hx => by
    simp only [entriesHaveNoFloat, Bool.and_eq_true] at h
    rcases List.mem_cons.mp hx with rfl | hx
    · exact ⟨looseEq_self key h.1.1, looseEq_self value h.1.2⟩
    · exact sameEntry_self xs h.2 x hx
end

/-! ## Transitivity -/

/-- Numbers are equal to what their equals are equal to. -/
theorem looseEq_trans_of_asNumber? {u v w : Value} {x : Binary64} (hu : u.asNumber? = some x)
    (huv : u.looseEq v = true) (hvw : v.looseEq w = true) : u.looseEq w = true := by
  obtain ⟨y, hv, hxy⟩ := exists_asNumber?_of_looseEq hu huv
  obtain ⟨z, hw, hyz⟩ := exists_asNumber?_of_looseEq hv hvw
  rw [looseEq_of_asNumber? hu hw]
  exact Binary64.sameNumber_trans hxy hyz

-- The induction is on the first value: what it is equal to has its shape.
mutual
/-- **Equality is transitive**, on all values. -/
theorem looseEq_trans : (u v w : Value) → u.looseEq v = true → v.looseEq w = true →
    u.looseEq w = true
  | .none, v, w, huv, hvw => by
    obtain rfl := eq_none_of_looseEq huv
    exact hvw
  | .bool _, _, _, huv, hvw => looseEq_trans_of_asNumber? rfl huv hvw
  | .int _, _, _, huv, hvw => looseEq_trans_of_asNumber? rfl huv hvw
  | .float _, _, _, huv, hvw => looseEq_trans_of_asNumber? rfl huv hvw
  | .str _ content, v, w, huv, hvw => by
    obtain ⟨j, rfl⟩ := eq_str_of_looseEq huv
    obtain ⟨k, rfl⟩ := eq_str_of_looseEq hvw
    exact decide_eq_true rfl
  | .list _ xs, v, w, huv, hvw => by
    obtain ⟨j, ys, rfl, hxy⟩ := eq_list_of_looseEq huv
    obtain ⟨k, zs, rfl, hyz⟩ := eq_list_of_looseEq hvw
    exact looseEqItems_trans xs ys zs hxy hyz
  | .tuple _ xs, v, w, huv, hvw => by
    obtain ⟨j, ys, rfl, hxy⟩ := eq_tuple_of_looseEq huv
    obtain ⟨k, zs, rfl, hyz⟩ := eq_tuple_of_looseEq hvw
    exact looseEqItems_trans xs ys zs hxy hyz
  | .dict _ xs, v, w, huv, hvw => by
    obtain ⟨j, ys, rfl⟩ := exists_dict_of_looseEq huv
    obtain ⟨k, zs, rfl⟩ := exists_dict_of_looseEq hvw
    obtain ⟨hlength, hxy⟩ := looseEq_dict_iff.mp huv
    obtain ⟨hlength', hyz⟩ := looseEq_dict_iff.mp hvw
    refine looseEq_dict_iff.mpr ⟨hlength.trans hlength', ?_⟩
    intro x hx
    obtain ⟨y, hy, hxy⟩ := hxy x hx
    obtain ⟨z, hz, hyz⟩ := hyz y hy
    exact ⟨z, hz, sameEntry_trans xs x hx y z hxy hyz⟩
  | .object i _ _ _, v, w, huv, hvw => by
    obtain ⟨_, _, _, rfl⟩ := eq_object_of_looseEq huv
    obtain ⟨_, _, _, rfl⟩ := eq_object_of_looseEq hvw
    exact decide_eq_true rfl

theorem looseEqItems_trans : (xs ys zs : List Value) → looseEqItems xs ys = true →
    looseEqItems ys zs = true → looseEqItems xs zs = true
  | [], [], _, _, hyz => hyz
  | x :: xs, y :: ys, z :: zs, hxy, hyz => by
    simp only [looseEqItems, Bool.and_eq_true] at hxy hyz ⊢
    exact ⟨looseEq_trans x y z hxy.1 hyz.1, looseEqItems_trans xs ys zs hxy.2 hyz.2⟩
  | _ :: _, _ :: _, [], _, hyz => by simp [looseEqItems] at hyz
  | [], _ :: _, _, hxy, _ => by simp [looseEqItems] at hxy
  | _ :: _, [], _, hxy, _ => by simp [looseEqItems] at hxy

theorem sameEntry_trans : (xs : List (Value × Value)) → ∀ x ∈ xs, ∀ y z, SameEntry x y →
    SameEntry y z → SameEntry x z
  | [], _, hx, _, _, _, _ => by cases hx
  | (key, value) :: xs, x, hx, y, z, hxy, hyz => by
    rcases List.mem_cons.mp hx with rfl | hx
    · exact ⟨looseEq_trans key y.1 z.1 hxy.1 hyz.1,
        looseEq_trans value y.2 z.2 hxy.2 hyz.2⟩
    · exact sameEntry_trans xs x hx y z hxy hyz
end

/-! ## Symmetry -/

/-- Numbers are equal to what they equal. -/
theorem looseEq_symm_of_asNumber? {v w : Value} {x : Binary64} (hv : v.asNumber? = some x)
    (h : v.looseEq w = true) : w.looseEq v = true := by
  obtain ⟨y, hw, hxy⟩ := exists_asNumber?_of_looseEq hv h
  rw [looseEq_of_asNumber? hw hv, Binary64.sameNumber_comm]
  exact hxy

-- Again the induction is on the first value, and only its own entries have to be distinct.
mutual
/-- **Equality is symmetric** where the first value repeats no entry. -/
theorem looseEq_symm : (v w : Value) → v.repeatsNoEntry = true → v.looseEq w = true →
    w.looseEq v = true
  | .none, w, _, h => by
    obtain rfl := eq_none_of_looseEq h
    rfl
  | .bool _, _, _, h => looseEq_symm_of_asNumber? rfl h
  | .int _, _, _, h => looseEq_symm_of_asNumber? rfl h
  | .float _, _, _, h => looseEq_symm_of_asNumber? rfl h
  | .str _ content, w, _, h => by
    obtain ⟨j, rfl⟩ := eq_str_of_looseEq h
    exact decide_eq_true rfl
  | .list _ xs, w, hv, h => by
    obtain ⟨j, ys, rfl, hxy⟩ := eq_list_of_looseEq h
    exact looseEqItems_symm xs ys hv hxy
  | .tuple _ xs, w, hv, h => by
    obtain ⟨j, ys, rfl, hxy⟩ := eq_tuple_of_looseEq h
    exact looseEqItems_symm xs ys hv hxy
  | .dict _ xs, w, hv, h => by
    obtain ⟨j, ys, rfl⟩ := exists_dict_of_looseEq h
    obtain ⟨hlength, hxy⟩ := looseEq_dict_iff.mp h
    have hyx : ∀ y ∈ ys, ∃ x ∈ xs, SameEntry y x :=
      covered_of_pairwise hlength (pairwise_of_areDistinctEntries hv) (sameEntry_symm xs hv)
        (sameEntry_trans xs) hxy
    exact looseEq_dict_iff.mpr ⟨hlength.symm, hyx⟩
  | .object i _ _ _, w, _, h => by
    obtain ⟨_, _, _, rfl⟩ := eq_object_of_looseEq h
    exact decide_eq_true rfl

theorem looseEqItems_symm : (xs ys : List Value) → repeatNoEntry xs = true →
    looseEqItems xs ys = true → looseEqItems ys xs = true
  | [], [], _, _ => rfl
  | x :: xs, y :: ys, hxs, h => by
    simp only [repeatNoEntry, Bool.and_eq_true] at hxs
    simp only [looseEqItems, Bool.and_eq_true] at h ⊢
    exact ⟨looseEq_symm x y hxs.1 h.1, looseEqItems_symm xs ys hxs.2 h.2⟩
  | [], _ :: _, _, h => by simp [looseEqItems] at h
  | _ :: _, [], _, h => by simp [looseEqItems] at h

theorem sameEntry_symm : (xs : List (Value × Value)) → areDistinctEntries xs = true →
    ∀ x ∈ xs, ∀ y, SameEntry x y → SameEntry y x
  | [], _, _, hx, _, _ => by cases hx
  | (key, value) :: xs, h, x, hx, y, hxy => by
    obtain ⟨⟨hkey, hvalue⟩, -, hrest⟩ := areDistinctEntries_cons_iff.mp h
    rcases List.mem_cons.mp hx with rfl | hx
    · exact ⟨looseEq_symm key y.1 hkey hxy.1, looseEq_symm value y.2 hvalue hxy.2⟩
    · exact sameEntry_symm xs hrest x hx y hxy
end

/-! ## Repeated entries -/

-- What is equal to a value holds the objects of the value.
mutual
theorem mem_objects_of_looseEq (i : Identity) : (v w : Value) → v.looseEq w = true →
    i ∈ v.objects → i ∈ w.objects
  | .none, _, _, hi => by cases hi
  | .bool _, _, _, hi => by cases hi
  | .int _, _, _, hi => by cases hi
  | .float _, _, _, hi => by cases hi
  | .str _ _, _, _, hi => by cases hi
  | .list _ xs, w, h, hi => by
    obtain ⟨j, ys, rfl, hxy⟩ := eq_list_of_looseEq h
    exact mem_objectsOf_of_looseEqItems i xs ys hxy hi
  | .tuple _ xs, w, h, hi => by
    obtain ⟨j, ys, rfl, hxy⟩ := eq_tuple_of_looseEq h
    exact mem_objectsOf_of_looseEqItems i xs ys hxy hi
  | .dict _ xs, w, h, hi => by
    obtain ⟨j, ys, rfl⟩ := exists_dict_of_looseEq h
    obtain ⟨x, hx, hi⟩ := mem_objectsOfEntries_iff.mp hi
    obtain ⟨y, hy, hsame⟩ := (looseEq_dict_iff.mp h).2 x hx
    exact mem_objectsOfEntries_iff.mpr ⟨y, hy, mem_objects_of_sameEntry i xs x hx y hsame hi⟩
  | .object _ _ _ _, w, h, hi => by
    obtain ⟨_, _, _, rfl⟩ := eq_object_of_looseEq h
    exact hi

theorem mem_objectsOf_of_looseEqItems (i : Identity) : (xs ys : List Value) →
    looseEqItems xs ys = true → i ∈ objectsOf xs → i ∈ objectsOf ys
  | [], _, _, hi => by cases hi
  | x :: xs, y :: ys, h, hi => by
    simp only [looseEqItems, Bool.and_eq_true] at h
    simp only [objectsOf, List.mem_append] at hi ⊢
    exact hi.imp (mem_objects_of_looseEq i x y h.1) (mem_objectsOf_of_looseEqItems i xs ys h.2)
  | _ :: _, [], h, _ => by simp [looseEqItems] at h

theorem mem_objects_of_sameEntry (i : Identity) : (xs : List (Value × Value)) → ∀ x ∈ xs, ∀ y,
    SameEntry x y → i ∈ x.1.objects ∨ i ∈ x.2.objects → i ∈ y.1.objects ∨ i ∈ y.2.objects
  | [], _, hx, _, _, _ => by cases hx
  | (key, value) :: xs, x, hx, y, hsame, hi => by
    rcases List.mem_cons.mp hx with rfl | hx
    · exact hi.imp (mem_objects_of_looseEq i key y.1 hsame.1) (mem_objects_of_looseEq i value y.2 hsame.2)
    · exact mem_objects_of_sameEntry i xs x hx y hsame hi
end

/-- The first of some entries gives way to one that holds an object. It must still be covered, by the new
    entry or by one of the others. -/
theorem exists_covering_of_first {i : Identity} {x y : Value × Value} {xs : List (Value × Value)}
    (hkey : y.1.hasNoFloat = true) (hvalue : y.2.hasNoFloat = true)
    (hxs : entriesHaveNoFloat xs = true) (hfirst : ∃ z ∈ y :: xs, SameEntry x z)
    (hi : i ∈ y.1.objects ∨ i ∈ y.2.objects) :
    ∃ ys, entriesHaveNoFloat ys = true ∧ (x :: xs).length = ys.length ∧
      (∀ z ∈ x :: xs, ∃ w ∈ ys, SameEntry z w) ∧ i ∈ objectsOfEntries ys := by
  refine ⟨y :: xs, ?_, rfl, ?_, ?_⟩
  · simp only [entriesHaveNoFloat, hkey, hvalue, hxs, Bool.and_true]
  · exact covered_cons hfirst fun z hz => ⟨z, hz, sameEntry_self xs hxs z hz⟩
  · exact mem_objectsOfEntries_iff.mpr ⟨y, List.mem_cons_self, hi⟩

-- The entry that gives way is the first of two equal ones: the other stays, and so it is still covered.
mutual
/-- **A value with a repeated entry is equal to one that holds any object.** -/
theorem exists_looseEq_with_object (i : Identity) : (v : Value) → v.hasNoFloat = true →
    v.repeatsNoEntry = false → ∃ w, w.hasNoFloat = true ∧ v.looseEq w = true ∧ i ∈ w.objects
  | .none, _, h => by cases h
  | .bool _, _, h => by cases h
  | .int _, _, h => by cases h
  | .float _, hv, _ => by cases hv
  | .str _ _, _, h => by cases h
  | .list k xs, hv, h => by
    obtain ⟨ys, hys, hsame, hi⟩ := exists_looseEqItems_with_object i xs hv h
    exact ⟨.list k ys, hys, hsame, hi⟩
  | .tuple k xs, hv, h => by
    obtain ⟨ys, hys, hsame, hi⟩ := exists_looseEqItems_with_object i xs hv h
    exact ⟨.tuple k ys, hys, hsame, hi⟩
  | .dict k xs, hv, h => by
    obtain ⟨ys, hys, hlength, hcover, hi⟩ := exists_covering_with_object i xs hv h
    exact ⟨.dict k ys, hys, looseEq_dict_iff.mpr ⟨hlength, hcover⟩, hi⟩
  | .object .., _, h => by cases h

theorem exists_looseEqItems_with_object (i : Identity) : (xs : List Value) → haveNoFloat xs = true →
    repeatNoEntry xs = false →
    ∃ ys, haveNoFloat ys = true ∧ looseEqItems xs ys = true ∧ i ∈ objectsOf ys
  | [], _, h => by cases h
  | x :: xs, hv, h => by
    simp only [haveNoFloat, Bool.and_eq_true] at hv
    simp only [repeatNoEntry, Bool.and_eq_false_iff] at h
    rcases h with h | h
    · obtain ⟨y, hy, hxy, hi⟩ := exists_looseEq_with_object i x hv.1 h
      refine ⟨y :: xs, ?_, ?_, List.mem_append_left _ hi⟩
      · simp only [haveNoFloat, hy, hv.2, Bool.and_true]
      · simp only [looseEqItems, hxy, looseEqItems_self xs hv.2, Bool.and_true]
    · obtain ⟨ys, hys, hxy, hi⟩ := exists_looseEqItems_with_object i xs hv.2 h
      refine ⟨x :: ys, ?_, ?_, List.mem_append_right _ hi⟩
      · simp only [haveNoFloat, hv.1, hys, Bool.and_true]
      · simp only [looseEqItems, looseEq_self x hv.1, hxy, Bool.and_true]

theorem exists_covering_with_object (i : Identity) : (xs : List (Value × Value)) →
    entriesHaveNoFloat xs = true → areDistinctEntries xs = false →
    ∃ ys, entriesHaveNoFloat ys = true ∧ xs.length = ys.length ∧
      (∀ x ∈ xs, ∃ y ∈ ys, SameEntry x y) ∧ i ∈ objectsOfEntries ys
  | [], _, h => by cases h
  | (key, value) :: xs, hv, h => by
    obtain ⟨hkeySame, hvalueSame⟩ := sameEntry_self _ hv (key, value) List.mem_cons_self
    simp only [entriesHaveNoFloat, Bool.and_eq_true] at hv
    obtain ⟨⟨hkey, hvalue⟩, hxs⟩ := hv
    simp only [areDistinctEntries, Bool.and_eq_false_iff, Bool.not_eq_false', or_assoc] at h
    rcases h with h | h | h | h
    · obtain ⟨key', hkey', hsame, hi⟩ := exists_looseEq_with_object i key hkey h
      exact exists_covering_of_first (y := (key', value)) hkey' hvalue hxs
        ⟨_, List.mem_cons_self, hsame, hvalueSame⟩ (.inl hi)
    · obtain ⟨value', hvalue', hsame, hi⟩ := exists_looseEq_with_object i value hvalue h
      exact exists_covering_of_first (y := (key, value')) hkey hvalue' hxs
        ⟨_, List.mem_cons_self, hkeySame, hsame⟩ (.inr hi)
    · obtain ⟨other, hother, hsame⟩ := List.any_eq_true.mp h
      simp only [Bool.and_eq_true] at hsame
      exact exists_covering_of_first (y := (.object i .object [] [], .none)) rfl rfl hxs
        ⟨other, List.mem_cons_of_mem _ hother, hsame⟩ (.inl List.mem_cons_self)
    · obtain ⟨ys, hys, hlength, hcover, hi⟩ := exists_covering_with_object i xs hxs h
      refine ⟨(key, value) :: ys, ?_, congrArg (· + 1) hlength, ?_, ?_⟩
      · simp only [entriesHaveNoFloat, hkey, hvalue, hys, Bool.and_true]
      · exact covered_cons ⟨_, List.mem_cons_self, hkeySame, hvalueSame⟩ hcover
      · exact List.mem_append_right _ hi
end

/-- There is always an object that is not among some others. -/
theorem exists_notMem (objects : List Identity) : ∃ i, i ∉ objects := by
  by_contra hall
  have hsubset : List.range (objects.length + 1) ⊆ objects := by
    intro i _
    exact not_not.mp fun hi => hall ⟨i, hi⟩
  have hlength := List.nodup_range.length_le_of_subset hsubset
  rw [List.length_range] at hlength
  omega

/-- **Repeated entries are all that is in the way of symmetry.** -/
theorem symmetric_iff {v : Value} (hv : v.hasNoFloat = true) :
    (∀ w, w.hasNoFloat = true → v.looseEq w = true → w.looseEq v = true) ↔
      v.repeatsNoEntry = true := by
  constructor
  · intro hsymm
    by_contra hrepeats
    obtain ⟨i, hi⟩ := exists_notMem v.objects
    obtain ⟨w, hw, hvw, hiw⟩ := exists_looseEq_with_object i v hv (eq_false_of_ne_true hrepeats)
    exact hi (mem_objects_of_looseEq i w v (hsymm w hw hvw) hiw)
  · intro hrepeats w _ hvw
    exact looseEq_symm v w hrepeats hvw

/-! ## Verdicts -/

theorem identical_comm (v w : Value) : v.identical w = w.identical v := by
  cases v <;> cases w <;> simp [identical, eq_comm]

/-- A constant is no dict, and so it may stand on either side of a comparison. -/
theorem looseEq_literal_comm (host : Host) (constant : Literal) (v : Value) :
    v.looseEq (host.literal constant) = (host.literal constant).looseEq v := by
  cases constant <;> cases v <;>
    simp [Host.literal, looseEq, numberEq?, asNumber?, eq_comm, Binary64.sameNumber_comm]

end Value

namespace Matcher

/-- A literal gives its verdict without fail: identity for a singleton, and equality for all else. -/
theorem matchLiteral_eq (constant : Literal) (v : Value) (s : Matcher) :
    ∃ t, matchLiteral constant v s = .ok (if constant.isSingleton then
      v.identical (s.host.literal constant) else v.looseEq (s.host.literal constant)) t := by
  unfold matchLiteral
  cases hsingleton : constant.isSingleton with
  | true => exact ⟨s, rfl⟩
  | false =>
    have hask : askHost (.equals v (s.host.literal constant)) s =
        .ok (v.looseEq (s.host.literal constant)) { s with host := s.host.record .equals } :=
      askHost_of_answer rfl
    exact ⟨_, hask⟩

/-- A value reference to a value that is there gives the verdict of equality. -/
theorem matchValueRef_eq {expr : ExprRef} (v : Value) {w : Value} {s : Matcher}
    (h : s.host.valueOf expr = .ok w) : ∃ t, matchValueRef expr v s = .ok (v.looseEq w) t := by
  have hvalue : askHost (.value expr) s =
      .ok w { s with host := s.host.record (.evalValue expr) } := askHost_of_answer h
  have hequals : ∀ t, askHost (.equals v w) t =
      .ok (v.looseEq w) { t with host := t.host.record .equals } := fun _ => askHost_of_answer rfl
  unfold matchValueRef
  rw [bind_of_ok hvalue]
  exact ⟨_, hequals _⟩

end Matcher

/-- What equality of the language does for a value, and what verdicts say of it that rest on equality. -/
structure Value.EqualityLaws (v : Value) : Prop where
  /-- The value is equal to itself. -/
  refl : v.looseEq v = true
  /-- The value is equal to what its equals are equal to. -/
  trans : ∀ w u, v.looseEq w = true → w.looseEq u = true → v.looseEq u = true
  /-- All that the value is equal to is equal to it, exactly if no dict in it has two equal entries. -/
  symm_iff : (∀ w, w.hasNoFloat = true → v.looseEq w = true → w.looseEq v = true) ↔
    v.repeatsNoEntry = true
  /-- The verdict of a literal is that of the comparison the other way round. -/
  literal : ∀ constant s, ∃ t, Matcher.matchLiteral constant v s = .ok (if constant.isSingleton then
    (s.host.literal constant).identical v else (s.host.literal constant).looseEq v) t
  /-- With another value, neither of the two having a dict with two equal entries, a value reference gives
      one verdict whichever of them is the subject and whichever the reference. -/
  valueRef : ∀ w, v.repeatsNoEntry = true → w.repeatsNoEntry = true →
    ∀ (expr expr' : ExprRef) (s t : Matcher),
      s.host.valueOf expr = .ok w → t.host.valueOf expr' = .ok v →
      ∃ verdict s' t', Matcher.matchValueRef expr v s = .ok verdict s' ∧
        Matcher.matchValueRef expr' w t = .ok verdict t'

namespace Value

/-- **The laws of equality** hold of every value without floating point numbers. -/
theorem equalityLaws (v : Value) (hv : v.hasNoFloat = true) : v.EqualityLaws where
  refl := looseEq_self v hv
  trans w u := looseEq_trans v w u
  symm_iff := symmetric_iff hv
  literal constant s := by
    rw [identical_comm, ← looseEq_literal_comm]
    exact Matcher.matchLiteral_eq constant v s
  valueRef w hv hw expr expr' s t hs ht := by
    have hcomm : v.looseEq w = w.looseEq v :=
      Bool.eq_iff_iff.mpr ⟨looseEq_symm v w hv, looseEq_symm w v hw⟩
    obtain ⟨s', hs'⟩ := Matcher.matchValueRef_eq v hs
    obtain ⟨t', ht'⟩ := Matcher.matchValueRef_eq w ht
    exact ⟨v.looseEq w, s', t', hs', hcomm ▸ ht'⟩

/-- The dicts with the entries `"a"` to `[1, (true : 2)]` and `"b"` to `()` are equal both ways round. -/
theorem equalityLaws_nested :
    let inner : Value := .dict 1 [(.bool true, .int 2)]
    let v : Value := .dict 0 [(.str 2 "a", .list 3 [.int 1, inner]), (.str 4 "b", .tuple 5 [])]
    let w : Value := .dict 6 [(.str 7 "b", .tuple 8 []), (.str 9 "a", .list 10 [.bool true, inner])]
    v.hasNoFloat = true ∧ v.repeatsNoEntry = true ∧ v.looseEq w = true ∧ w.looseEq v = true := by
  intro inner v w
  have hv : v.hasNoFloat = true := by decide
  have hrepeats : v.repeatsNoEntry = true := by decide
  have hvw : v.looseEq w = true := by decide
  have hwv := (equalityLaws v hv).symm_iff.mpr hrepeats w (by decide) hvw
  exact ⟨hv, hrepeats, hvw, hwv⟩

/-- A dict that has the entry `1 : 1` twice is equal to the dict of `1 : 1` and `2 : 2`, and this is not
    equal to it: its second entry has no partner. -/
theorem looseEq_not_symmetric :
    ¬ ∀ v w : Value, v.hasNoFloat = true → w.hasNoFloat = true → v.looseEq w = true →
      w.looseEq v = true := by
  intro h
  have hsame := h (.dict 0 [(.int 1, .int 1), (.int 1, .int 1)])
    (.dict 1 [(.int 1, .int 1), (.int 2, .int 2)]) (by decide) (by decide) (by decide)
  have hnot : looseEq (.dict 1 [(.int 1, .int 1), (.int 2, .int 2)])
      (.dict 0 [(.int 1, .int 1), (.int 1, .int 1)]) = false := by decide
  rw [hnot] at hsame
  cases hsame

end Value

end StructuralMatch

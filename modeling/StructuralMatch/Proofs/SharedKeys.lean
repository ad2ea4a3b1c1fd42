import Mathlib.Logic.Relation
import StructuralMatch.Proofs.EqualKeys
import StructuralMatch.Proofs.InternedNames

/-!
# `Proofs.SharedKeys` — values with one key are equal

A mapping finds an entry by the hash identity of its key. This is right if two values with one identity are
equal. Identities of different kinds are never the same, a name is the name of one text, and integers are
kept exactly; tuples are compared item by item.

A host may keep no more of a text, a tuple or an object than a digest of 64 bits that its kind is mixed
into. `MapKey.digested` is the identity that is left then, where the digest of a tuple is taken of the
digested identities of its items. As long as no two different inputs that occur have one digest, nothing is
lost (`MapKey.eq_of_digested_eq`), and so the result holds of digested identities as well.

* `MapKey.digested`, `MapKey.digestInputs` and `NoCollision` describe digests.
* `Value.looseEq_of_mapKey_eq`: values with one identity are equal.
* `Value.mapKey_eq_none_iff`: lists and dicts have no identity, and neither has what holds one.
* `Host.digestKey_faithful` is the main result.
-/

namespace StructuralMatch

/-! ## Digested identities -/

namespace MapKey

mutual
/-- The identity of which texts, tuples and objects are kept as digests. -/
def digested (digest : MapKey → UInt64) : MapKey → MapKey
  | .text content => .digest (digest (.text content)).toNat
  | .tuple items => .digest (digest (.tuple (digestedItems digest items))).toNat
  | .object identity => .digest (digest (.object identity)).toNat
  | key => key

/-- The digested identities of the items of a tuple. -/
def digestedItems (digest : MapKey → UInt64) : List MapKey → List MapKey
  | [] => []
  | item :: rest => digested digest item :: digestedItems digest rest
end

/-- What the digest of an identity is taken of, if it is kept as one. -/
def digestInput? (digest : MapKey → UInt64) : MapKey → Option MapKey
  | .text content => some (.text content)
  | .tuple items => some (.tuple (digestedItems digest items))
  | .object identity => some (.object identity)
  | _ => Option.none

mutual
/-- All that digests are taken of, in an identity and in the items of a tuple. -/
def digestInputs (digest : MapKey → UInt64) : MapKey → List MapKey
  | .text content => [.text content]
  | .tuple items => .tuple (digestedItems digest items) :: digestInputsOf digest items
  | .object identity => [.object identity]
  | _ => []

/-- All that digests are taken of in the items of a tuple. -/
def digestInputsOf (digest : MapKey → UInt64) : List MapKey → List MapKey
  | [] => []
  | item :: rest => digestInputs digest item ++ digestInputsOf digest rest
end

mutual
/-- Whether an identity holds no bare digest. -/
def isPlain : MapKey → Bool
  | .digest _ => false
  | .tuple items => arePlain items
  | _ => true

/-- Whether none of some identities holds a bare digest. -/
def arePlain : List MapKey → Bool
  | [] => true
  | item :: rest => item.isPlain && arePlain rest
end

end MapKey

/-- No two different inputs, one of either list, have one digest. -/
def NoCollision (digest : MapKey → UInt64) (left right : List MapKey) : Prop :=
  ∀ x ∈ left, ∀ y ∈ right, digest x = digest y → x = y

theorem NoCollision.mono {digest : MapKey → UInt64} {left right left' right' : List MapKey}
    (h : NoCollision digest left right) (hleft : left' ⊆ left) (hright : right' ⊆ right) :
    NoCollision digest left' right' :=
  fun x hx y hy => h x (hleft hx) y (hright hy)

namespace MapKey

variable {digest : MapKey → UInt64} {k l x : MapKey}

theorem digested_of_digestInput? (h : k.digestInput? digest = some x) :
    k.digested digest = .digest (digest x).toNat := by
  cases k <;> cases h <;> simp only [digested]

theorem mem_digestInputs (h : k.digestInput? digest = some x) : x ∈ k.digestInputs digest := by
  cases k <;> cases h <;> simp [digestInputs]

/-- An identity that is not kept as a digest is kept as it is. -/
theorem digested_of_digestInput?_none (h : k.digestInput? digest = Option.none) :
    k.digested digest = k := by
  cases k <;> cases h <;> simp only [digested]

/-- **Two identities that are the same once they are digested were digested from one input**, or both are
    kept as they are. -/
theorem digestInput?_eq (hk : k.isPlain = true) (hl : l.isPlain = true)
    (hclean : NoCollision digest (k.digestInputs digest) (l.digestInputs digest))
    (h : k.digested digest = l.digested digest) :
    k.digestInput? digest = l.digestInput? digest := by
  have hbare {key : MapKey} {code : Nat} (hkey : key.isPlain = true)
      (hnone : key.digestInput? digest = Option.none) : key.digested digest ≠ .digest code := by
    rw [digested_of_digestInput?_none hnone]
    rintro rfl
    cases hkey
  cases hx : k.digestInput? digest with
  | none =>
    cases hy : l.digestInput? digest with
    | none => rfl
    | some y => exact absurd (h.trans (digested_of_digestInput? hy)) (hbare hk hx)
  | some x =>
    cases hy : l.digestInput? digest with
    | none => exact absurd (h.symm.trans (digested_of_digestInput? hx)) (hbare hl hy)
    | some y =>
      rw [digested_of_digestInput? hx, digested_of_digestInput? hy, MapKey.digest.injEq,
        UInt64.toNat_inj] at h
      rw [hclean x (mem_digestInputs hx) y (mem_digestInputs hy) h]

/-- Identities other than tuples are told apart by what they are digested from. -/
theorem eq_of_digestInput?_eq (hleaf : ∀ items, k ≠ .tuple items)
    (hinput : k.digestInput? digest = l.digestInput? digest)
    (h : k.digested digest = l.digested digest) : k = l := by
  cases k <;> cases l <;> simp_all [digestInput?, digested]

-- The induction follows the first identity: only tuples are digested together with their items.
mutual
/-- **Digests that do not collide lose nothing.** -/
theorem eq_of_digested_eq (digest : MapKey → UInt64) : (k l : MapKey) → k.isPlain = true →
    l.isPlain = true → NoCollision digest (k.digestInputs digest) (l.digestInputs digest) →
    k.digested digest = l.digested digest → k = l
  | .tuple ks, l, hk, hl, hclean, h => by
    have hinput := digestInput?_eq hk hl hclean h
    cases l with
    | tuple ls =>
      have hitems : digestedItems digest ks = digestedItems digest ls := by
        simpa only [digestInput?, Option.some.injEq, MapKey.tuple.injEq] using hinput
      have hinner : NoCollision digest (digestInputsOf digest ks) (digestInputsOf digest ls) :=
        hclean.mono (List.subset_cons_self _ _) (List.subset_cons_self _ _)
      rw [eq_of_digestedItems_eq digest ks ls hk hl hinner hitems]
    | _ => simp [digestInput?] at hinput
  | .none, _, hk, hl, hclean, h => eq_of_digestInput?_eq nofun (digestInput?_eq hk hl hclean h) h
  | .int _, _, hk, hl, hclean, h => eq_of_digestInput?_eq nofun (digestInput?_eq hk hl hclean h) h
  | .float _, _, hk, hl, hclean, h => eq_of_digestInput?_eq nofun (digestInput?_eq hk hl hclean h) h
  | .str _, _, hk, hl, hclean, h => eq_of_digestInput?_eq nofun (digestInput?_eq hk hl hclean h) h
  | .digest _, _, hk, hl, hclean, h => eq_of_digestInput?_eq nofun (digestInput?_eq hk hl hclean h) h
  | .text _, _, hk, hl, hclean, h => eq_of_digestInput?_eq nofun (digestInput?_eq hk hl hclean h) h
  | .object _, _, hk, hl, hclean, h => eq_of_digestInput?_eq nofun (digestInput?_eq hk hl hclean h) h

theorem eq_of_digestedItems_eq (digest : MapKey → UInt64) : (ks ls : List MapKey) →
    arePlain ks = true → arePlain ls = true →
    NoCollision digest (digestInputsOf digest ks) (digestInputsOf digest ls) →
    digestedItems digest ks = digestedItems digest ls → ks = ls
  | [], [], _, _, _, _ => rfl
  | k :: ks, l :: ls, hks, hls, hclean, h => by
    simp only [arePlain, Bool.and_eq_true] at hks hls
    simp only [digestedItems, List.cons.injEq] at h
    have hhead : NoCollision digest (k.digestInputs digest) (l.digestInputs digest) :=
      hclean.mono (List.subset_append_left _ _) (List.subset_append_left _ _)
    have htail : NoCollision digest (digestInputsOf digest ks) (digestInputsOf digest ls) :=
      hclean.mono (List.subset_append_right _ _) (List.subset_append_right _ _)
    rw [eq_of_digested_eq digest k l hks.1 hls.1 hhead h.1,
      eq_of_digestedItems_eq digest ks ls hks.2 hls.2 htail h.2]
  | [], _ :: _, _, _, _, h => by simp [digestedItems] at h
  | _ :: _, [], _, _, _, h => by simp [digestedItems] at h
end

end MapKey

/-! ## Which values have an identity -/

section Items

variable {names : Interner} {item : Value} {items rest : List Value} {keys : List MapKey}

theorem mapKeys_cons_eq_some_iff : mapKeys names (item :: rest) = some keys ↔
    ∃ key others, item.mapKey names = some key ∧ mapKeys names rest = some others ∧
      keys = key :: others := by
  cases hitem : item.mapKey names with
  | none => simp [mapKeys, hitem]
  | some key =>
    cases hrest : mapKeys names rest with
    | none => simp [mapKeys, hitem, hrest]
    | some others => simp [mapKeys, hitem, hrest, eq_comm]

theorem mapKeys_eq_none_iff : mapKeys names items = none ↔ ∃ item ∈ items, item.mapKey names = none := by
  induction items with
  | nil => simp [mapKeys]
  | cons item rest ih =>
    rw [List.exists_mem_cons_iff, ← ih]
    cases hitem : item.mapKey names with
    | none => simp [mapKeys, hitem]
    | some key => cases hrest : mapKeys names rest <;> simp [mapKeys, hitem, hrest]

end Items

namespace Value

/-- The second value is an item of the first one, which is a tuple. -/
inductive HasTupleItem : Value → Value → Prop
  | intro {identity items item} : item ∈ items → HasTupleItem (.tuple identity items) item

/-- The second value is the first one or lies inside it with nothing but tuples around it. -/
def HoldsInTuples : Value → Value → Prop := Relation.ReflTransGen HasTupleItem

/-- Whether a value is a list or a dict. -/
def isListOrDict : Value → Bool
  | .list .. | .dict .. => true
  | _ => false

/-- A list or dict takes the identity away from whatever holds it. -/
theorem mapKey_eq_none_of_holds (names : Interner) {v inner : Value} (h : v.HoldsInTuples inner)
    (hinner : inner.isListOrDict = true) : v.mapKey names = Option.none := by
  induction h using Relation.ReflTransGen.head_induction_on with
  | refl => cases inner <;> first | rfl | cases hinner
  | head hitem _ ih =>
    cases hitem with
    | intro hmem =>
      rw [mapKey, mapKeys_eq_none_iff.mpr ⟨_, hmem, ih⟩]
      rfl

mutual
/-- A value without an identity holds a list or dict. -/
theorem exists_holds_of_mapKey (names : Interner) : (v : Value) → v.mapKey names = Option.none →
    ∃ inner, v.HoldsInTuples inner ∧ inner.isListOrDict = true
  | .none, h => by cases h
  | .bool _, h => by cases h
  | .int _, h => by cases h
  | .float _, h => by cases h
  | .str _ content, h => by
    unfold mapKey at h
    split at h <;> cases h
  | .list i items, _ => ⟨.list i items, .refl, rfl⟩
  | .tuple i items, h => by
    have hitems : mapKeys names items = Option.none := Option.map_eq_none_iff.mp h
    obtain ⟨item, hmem, inner, hholds, hinner⟩ := exists_holds_of_mapKeys names items hitems
    exact ⟨inner, .head (.intro hmem) hholds, hinner⟩
  | .dict i entries, _ => ⟨.dict i entries, .refl, rfl⟩
  | .object .., h => by cases h

theorem exists_holds_of_mapKeys (names : Interner) : (items : List Value) →
    mapKeys names items = Option.none →
    ∃ item ∈ items, ∃ inner, item.HoldsInTuples inner ∧ inner.isListOrDict = true
  | [], h => by cases h
  | item :: rest, h => by
    cases hitem : item.mapKey names with
    | none => exact ⟨item, List.mem_cons_self, exists_holds_of_mapKey names item hitem⟩
    | some key =>
      have hrest : mapKeys names rest = Option.none := by
        cases hrest : mapKeys names rest <;> simp_all [mapKeys]
      obtain ⟨found, hmem, hholds⟩ := exists_holds_of_mapKeys names rest hrest
      exact ⟨found, List.mem_cons_of_mem _ hmem, hholds⟩
end

/-- **Lists and dicts have no identity, and neither has a tuple that holds one.** All else has one. -/
theorem mapKey_eq_none_iff (names : Interner) (v : Value) :
    v.mapKey names = Option.none ↔ ∃ inner, v.HoldsInTuples inner ∧ inner.isListOrDict = true :=
  ⟨exists_holds_of_mapKey names v, fun ⟨_, hholds, hinner⟩ => mapKey_eq_none_of_holds names hholds hinner⟩

/-! ## What has a given identity -/

variable {names : Interner} {w : Value}

theorem eq_none_of_mapKey (hw : w.isFloatFree = true) (h : w.mapKey names = some .none) :
    w = .none := by
  cases w with
  | none => rfl
  | str _ content => cases hname : names.get? content <;> simp [mapKey, hname] at h
  | bool | int | tuple | object => simp [mapKey, MapKey.ofBool] at h
  | float | list | dict => cases hw

theorem asInt?_of_mapKey {n : Int} (hw : w.isFloatFree = true) (h : w.mapKey names = some (.int n)) :
    w.asInt? = some n := by
  cases w with
  | bool | int => simpa [mapKey, MapKey.ofBool, asInt?] using h
  | str _ content => cases hname : names.get? content <;> simp [mapKey, hname] at h
  | none | tuple | object => simp [mapKey] at h
  | float | list | dict => cases hw

/-- **A text has its identity to itself**, whether it is interned or not. -/
theorem exists_str_of_mapKey {i : Identity} {content : String} (hw : w.isFloatFree = true)
    (h : w.mapKey names = (str i content).mapKey names) : ∃ j, w = .str j content := by
  cases w with
  | str j other =>
    refine ⟨j, congrArg _ ?_⟩
    cases hname : names.get? content with
    | some name =>
      cases hother : names.get? other with
      | some name' =>
        simp only [mapKey, hname, hother, Option.some.injEq, MapKey.str.injEq] at h
        exact Interner.eq_of_get?_eq hother (h ▸ hname)
      | none => simp [mapKey, hname, hother] at h
    | none =>
      cases hother : names.get? other with
      | some name' => simp [mapKey, hname, hother] at h
      | none => simpa [mapKey, hname, hother] using h
  | none | bool | int | tuple | object =>
    cases hname : names.get? content <;> simp [mapKey, MapKey.ofBool, hname] at h
  | float | list | dict => cases hw

theorem exists_tuple_of_mapKey {keys : List MapKey} (hw : w.isFloatFree = true)
    (h : w.mapKey names = some (.tuple keys)) :
    ∃ j items, w = .tuple j items ∧ mapKeys names items = some keys := by
  cases w with
  | tuple j items =>
    refine ⟨j, items, rfl, ?_⟩
    simpa [mapKey] using h
  | str _ content => cases hname : names.get? content <;> simp [mapKey, hname] at h
  | none | bool | int | object => simp [mapKey, MapKey.ofBool] at h
  | float | list | dict => cases hw

theorem exists_object_of_mapKey {i : Identity} (hw : w.isFloatFree = true)
    (h : w.mapKey names = some (.object i)) :
    ∃ type attributes components, w = .object i type attributes components := by
  cases w with
  | object => simpa [mapKey] using h
  | str _ content => cases hname : names.get? content <;> simp [mapKey, hname] at h
  | none | bool | int | tuple => simp [mapKey, MapKey.ofBool] at h
  | float | list | dict => cases hw

end Value

-- The induction follows the first value: only tuples are compared by their items.
mutual
/-- **Values with one identity are equal.** -/
theorem Value.looseEq_of_mapKey_eq (names : Interner) : (v w : Value) → ∀ k, v.isFloatFree = true →
    w.isFloatFree = true → v.mapKey names = some k → w.mapKey names = some k → v.looseEq w = true
  | .none, w, k, _, hw, hk, hl => by
    obtain rfl : MapKey.none = k := Option.some.inj hk
    rw [Value.eq_none_of_mapKey hw hl]
    rfl
  | .bool b, w, k, hv, hw, hk, hl => by
    obtain rfl : MapKey.ofBool b = k := Option.some.inj hk
    exact Value.looseEq_of_asInt? hv rfl (Value.asInt?_of_mapKey hw hl)
  | .int n, w, k, hv, hw, hk, hl => by
    obtain rfl : MapKey.int n = k := Option.some.inj hk
    exact Value.looseEq_of_asInt? hv rfl (Value.asInt?_of_mapKey hw hl)
  | .str i content, w, k, _, hw, hk, hl => by
    obtain ⟨j, rfl⟩ := Value.exists_str_of_mapKey (i := i) hw (hl.trans hk.symm)
    simp only [Value.looseEq, decide_true]
  | .tuple i xs, w, k, hv, hw, hk, hl => by
    obtain ⟨keys, hkeys, rfl⟩ := Option.map_eq_some_iff.mp hk
    obtain ⟨j, ys, rfl, hkeys'⟩ := Value.exists_tuple_of_mapKey hw hl
    exact Value.looseEqItems_of_mapKeys_eq names xs ys keys hv hw hkeys hkeys'
  | .object i type attributes components, w, k, _, hw, hk, hl => by
    obtain rfl : MapKey.object i = k := Option.some.inj hk
    obtain ⟨_, _, _, rfl⟩ := Value.exists_object_of_mapKey hw hl
    simp only [Value.looseEq, decide_true]
  | .float _, _, _, hv, _, _, _ => by cases hv
  | .list .., _, _, hv, _, _, _ => by cases hv
  | .dict .., _, _, hv, _, _, _ => by cases hv

theorem Value.looseEqItems_of_mapKeys_eq (names : Interner) : (xs ys : List Value) → ∀ keys,
    areFloatFree xs = true → areFloatFree ys = true → mapKeys names xs = some keys →
    mapKeys names ys = some keys → Value.looseEqItems xs ys = true
  | [], ys, keys, _, _, hks, hls => by
    obtain rfl : [] = keys := Option.some.inj hks
    cases ys with
    | nil => rfl
    | cons y ys =>
      obtain ⟨_, _, _, _, hcons⟩ := mapKeys_cons_eq_some_iff.mp hls
      cases hcons
  | x :: xs, ys, keys, hxs, hys, hks, hls => by
    obtain ⟨k, ks, hk, hrest, rfl⟩ := mapKeys_cons_eq_some_iff.mp hks
    cases ys with
    | nil => cases hls
    | cons y ys =>
      obtain ⟨l, ls, hl, hrest', hcons⟩ := mapKeys_cons_eq_some_iff.mp hls
      cases hcons
      simp only [areFloatFree, Bool.and_eq_true] at hxs hys
      rw [Value.looseEqItems, Value.looseEq_of_mapKey_eq names x y k hxs.1 hys.1 hk hl,
        Value.looseEqItems_of_mapKeys_eq names xs ys ks hxs.2 hys.2 hrest hrest', Bool.and_self]
end

mutual
/-- The identity of a value is not a bare digest. -/
theorem Value.isPlain_of_mapKey (names : Interner) : (v : Value) → ∀ k, v.mapKey names = some k →
    k.isPlain = true
  | .none, _, h => by cases h; rfl
  | .bool _, _, h => by cases h; rfl
  | .int _, _, h => by cases h; rfl
  | .float x, _, h => by
    obtain rfl := Option.some.inj h
    unfold MapKey.ofFloat
    split
    · split <;> rfl
    · rfl
  | .str _ content, _, h => by
    unfold Value.mapKey at h
    split at h <;> cases h <;> rfl
  | .list .., _, h => by cases h
  | .tuple _ items, _, h => by
    obtain ⟨keys, hkeys, rfl⟩ := Option.map_eq_some_iff.mp h
    exact arePlain_of_mapKeys names items keys hkeys
  | .dict .., _, h => by cases h
  | .object .., _, h => by cases h; rfl

theorem arePlain_of_mapKeys (names : Interner) : (items : List Value) → ∀ keys,
    mapKeys names items = some keys → MapKey.arePlain keys = true
  | [], _, h => by cases h; rfl
  | item :: rest, _, h => by
    obtain ⟨key, keys, hkey, hkeys, rfl⟩ := mapKeys_cons_eq_some_iff.mp h
    simp only [MapKey.arePlain, Value.isPlain_of_mapKey names item key hkey,
      arePlain_of_mapKeys names rest keys hkeys, Bool.and_self]
end

namespace Host

/-- The identity of a value as a host gives it that keeps no more than digests of texts, tuples and
    objects. -/
def digestKey (host : Host) (digest : MapKey → UInt64) (value : Value) : Option MapKey :=
  (host.mapKey value).map (·.digested digest)

/-- All that digests are taken of for the identity of a value. -/
def digestInputs (host : Host) (digest : MapKey → UInt64) (value : Value) : List MapKey :=
  ((host.mapKey value).map (·.digestInputs digest)).getD []

/-- **Values with one key are equal**, for every host. Two values that are built from the absent value,
    truth values, integers, strings, tuples and objects are equal to the language if they have one
    identity. If the host keeps digests only, they are equal if their digested identities are the same, as
    long as no two different inputs of theirs have one digest. A value has no identity exactly if it is a
    list or dict, or holds one with nothing but tuples around it. -/
theorem digestKey_faithful (host : Host) (digest : MapKey → UInt64) :
    (∀ v w : Value, ∀ key, v.isFloatFree = true → w.isFloatFree = true →
      host.mapKey v = some key → host.mapKey w = some key → v.looseEq w = true) ∧
    (∀ v w : Value, ∀ key, v.isFloatFree = true → w.isFloatFree = true →
      NoCollision digest (host.digestInputs digest v) (host.digestInputs digest w) →
      host.digestKey digest v = some key → host.digestKey digest w = some key →
      v.looseEq w = true) ∧
    ∀ v : Value, (host.digestKey digest v = none ↔ host.mapKey v = none) ∧
      (host.mapKey v = none ↔ ∃ inner, v.HoldsInTuples inner ∧ inner.isListOrDict = true) := by
  refine ⟨?_, ?_, ?_⟩
  · intro v w key hv hw hk hl
    exact Value.looseEq_of_mapKey_eq host.names v w key hv hw hk hl
  · intro v w key hv hw hclean hkey hkey'
    obtain ⟨k, hk, hdigested⟩ := Option.map_eq_some_iff.mp hkey
    obtain ⟨l, hl, hdigested'⟩ := Option.map_eq_some_iff.mp hkey'
    simp only [digestInputs, hk, hl, Option.map_some, Option.getD_some] at hclean
    obtain rfl : k = l := MapKey.eq_of_digested_eq digest k l (v.isPlain_of_mapKey host.names k hk)
      (w.isPlain_of_mapKey host.names l hl) hclean (hdigested.trans hdigested'.symm)
    exact Value.looseEq_of_mapKey_eq host.names v w k hv hw hk hl
  · intro v
    exact ⟨Option.map_eq_none_iff, Value.mapKey_eq_none_iff host.names v⟩

/-- The words of an item of a tuple, which is digested itself: its kind and its contents. -/
def itemWords : MapKey → List UInt64
  | .none => [0]
  | .int n => [1, .ofInt n]
  | .float x => [2, x.bits]
  | .str name => [3, .ofNat name.index]
  | .digest code => [4, .ofNat code]
  | _ => []

/-- The words that a digest is taken of: a kind and the contents. -/
def inputWords : MapKey → List UInt64
  | .text content => 0 :: content.toList.map fun c => .ofNat c.toNat
  | .tuple items => 1 :: .ofNat items.length :: items.flatMap itemWords
  | .object identity => [2, .ofNat identity]
  | _ => []

/-- A digest that adds one word after the other and multiplies by an odd number each time. -/
def wordDigest (input : MapKey) : UInt64 :=
  let state := (inputWords input).foldl (fun state word => (state + word) * 0xf1357aea2e62a9c5) 0
  state <<< 26 ||| state >>> 38

/-- The tuples `(1, "object", (), x)` and `(true, "object", (), x)`, where `x` is an object, have one key
    and are equal. -/
theorem digestKey_faithful_nested :
    let v : Value := .tuple 0 [.int 1, .str 1 "object", .tuple 2 [], .object 3 ⟨9⟩ [] []]
    let w : Value := .tuple 4 [.bool true, .str 5 "object", .tuple 6 [], .object 3 ⟨9⟩ [] []]
    v.isFloatFree = true ∧ w.isFloatFree = true ∧
      NoCollision wordDigest (initial.digestInputs wordDigest v) (initial.digestInputs wordDigest w) ∧
      initial.digestKey wordDigest v = initial.digestKey wordDigest w ∧ v.looseEq w = true := by
  intro v w
  have hv : v.isFloatFree = true := by decide
  have hw : w.isFloatFree = true := by decide
  have hclean : NoCollision wordDigest (initial.digestInputs wordDigest v)
      (initial.digestInputs wordDigest w) := by
    unfold NoCollision
    decide +kernel
  have hsome : (initial.digestKey wordDigest v).isSome = true := by decide +kernel
  have hsame : initial.digestKey wordDigest w = initial.digestKey wordDigest v := by decide +kernel
  obtain ⟨key, hkey⟩ := Option.isSome_iff_exists.mp hsome
  exact ⟨hv, hw, hclean, hsame.symm,
    (digestKey_faithful initial wordDigest).2.1 v w key hv hw hclean hkey (hsame.trans hkey)⟩

end Host

end StructuralMatch

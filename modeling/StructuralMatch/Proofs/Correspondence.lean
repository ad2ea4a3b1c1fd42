import Mathlib.Data.List.Forall2
import StructuralMatch.Proofs.Computation
import StructuralMatch.Proofs.Targets

/-!
# `Proofs.Correspondence` — two evaluations side by side

Many facts compare two evaluations: with an empty memory and with a filled one, with and without known
kinds. This module proves once, by induction on patterns, that two evaluations of one pattern give the
same answer or the same error if their single steps do.

* `Agree` is the judgement: from related states two computations end in related states, with answers
  that meet a postcondition, or with one error.
* `Correspondence` lists what is asked of the steps. `V path` relates the values at a path on the two
  sides, `B` relates values that are bound.
* `Correspondence.matchPattern` is the result for patterns. `RunCorrespondence.settle` adds what follows
  the pattern of a clause, `RunCorrespondence.runInOrder` and `RunCorrespondence.runPlan` the run over
  the clauses.
-/

namespace StructuralMatch

/-- The same names are bound in the same order, to values that `B` relates. -/
def Bindings.Related {V : Type} (B : V → V → Prop) (a b : Bindings V) : Prop :=
  List.Forall₂ (fun x y => x.1 = y.1 ∧ B x.2 y.2) a.slots b.slots

/-- The same clause wins with bindings that are related, or no clause wins. -/
inductive Outcome.Related (B : Value → Value → Prop) : Outcome → Outcome → Prop
  | matched {index : Nat} {body : BodyRef} {a b : Bindings Value} : a.Related B b →
      Related B (.matched index body a) (.matched index body b)
  | noMatch : Related B .noMatch .noMatch

/-- Bindings of equal values are the same bindings. -/
theorem Outcome.Related.eq {a b : Outcome} (h : a.Related Eq b) : a = b := by
  cases h with
  | noMatch => rfl
  | @matched index body a b hbindings =>
    obtain ⟨xs⟩ := a
    obtain ⟨ys⟩ := b
    have hslots : xs = ys := by
      rw [← List.forall₂_eq_eq_eq]
      exact hbindings.imp fun x y hxy => Prod.ext hxy.1 hxy.2
    rw [hslots]

namespace Matcher

variable {α β γ δ : Type}

/-! ## The judgement -/

/-- Two results are alike: related states and answers that meet `Q`, or one error in states that `Fail`
    relates. -/
def Alike (Rel Fail : Matcher → Matcher → Prop) (Q : α → β → Prop) :
    EStateM.Result MatchError Matcher α → EStateM.Result MatchError Matcher β → Prop
  | .ok a u, .ok b v => Rel u v ∧ Q a b
  | .error e u, .error e' v => e = e' ∧ Fail u v
  | _, _ => False

/-- **The judgement.** From related states the two computations give results that are alike. -/
def Agree (Rel Fail : Matcher → Matcher → Prop) (x : MatchM α) (y : MatchM β) (Q : α → β → Prop) :
    Prop :=
  ∀ s t, Rel s t → Alike Rel Fail Q (x s) (y t)

/-- Where one side answers, the other answers too. -/
theorem Alike.of_ok {Rel Fail : Matcher → Matcher → Prop} {Q : α → β → Prop} {a : α} {u : Matcher}
    {r : EStateM.Result MatchError Matcher β} (h : Alike Rel Fail Q (.ok a u) r) :
    ∃ b v, r = .ok b v ∧ Rel u v ∧ Q a b := by
  cases r with
  | ok b v => exact ⟨b, v, rfl, h⟩
  | error e v => exact h.elim

/-- Where one side fails, the other fails with the same error. -/
theorem Alike.of_error {Rel Fail : Matcher → Matcher → Prop} {Q : α → β → Prop} {e : MatchError}
    {u : Matcher} {r : EStateM.Result MatchError Matcher β} (h : Alike Rel Fail Q (.error e u) r) :
    ∃ v, r = .error e v ∧ Fail u v := by
  cases r with
  | ok b v => exact h.elim
  | error e' v =>
    obtain ⟨rfl, hfail⟩ := h
    exact ⟨v, rfl, hfail⟩

theorem Alike.weaken {Rel Fail : Matcher → Matcher → Prop} {P Q : α → β → Prop}
    {r : EStateM.Result MatchError Matcher α} {r' : EStateM.Result MatchError Matcher β}
    (h : Alike Rel Fail P r r') (hQ : ∀ a b, P a b → Q a b) : Alike Rel Fail Q r r' := by
  cases r <;> cases r'
  · exact ⟨h.1, hQ _ _ h.2⟩
  · exact h
  · exact h
  · exact h

/-- A result is like itself. -/
theorem Alike.refl {Rel : Matcher → Matcher → Prop} (hRel : ∀ s, Rel s s)
    (r : EStateM.Result MatchError Matcher α) : Alike Rel Rel Eq r r := by
  cases r with
  | ok a u => exact ⟨hRel u, rfl⟩
  | error e u => exact ⟨rfl, hRel u⟩

/-- Results that are alike are followed by computations that agree. -/
theorem Alike.bind {Rel Fail : Matcher → Matcher → Prop} {x : MatchM α} {y : MatchM β}
    {f : α → MatchM γ} {g : β → MatchM δ} {P : α → β → Prop} {Q : γ → δ → Prop} {s t : Matcher}
    (h : Alike Rel Fail P (x s) (y t)) (hfg : ∀ a b, P a b → Agree Rel Fail (f a) (g b) Q) :
    Alike Rel Fail Q ((x >>= f) s) ((y >>= g) t) := by
  cases hx : x s with
  | ok a u =>
    rw [hx] at h
    obtain ⟨b, v, hy, huv, hab⟩ := h.of_ok
    rw [bind_of_ok hx, bind_of_ok hy]
    exact hfg a b hab u v huv
  | error e u =>
    rw [hx] at h
    obtain ⟨v, hy, hfail⟩ := h.of_error
    rw [bind_of_error hx, bind_of_error hy]
    exact ⟨rfl, hfail⟩

namespace Agree

variable {Rel Fail : Matcher → Matcher → Prop}

theorem pure {a : α} {b : β} {Q : α → β → Prop} (h : Q a b) :
    Agree Rel Fail (Pure.pure a : MatchM α) (Pure.pure b : MatchM β) Q :=
  fun _ _ hst => ⟨hst, h⟩

theorem weaken {x : MatchM α} {y : MatchM β} {P Q : α → β → Prop} (h : Agree Rel Fail x y P)
    (hQ : ∀ a b, P a b → Q a b) : Agree Rel Fail x y Q :=
  fun s t hst => (h s t hst).weaken hQ

/-- **Sequencing.** -/
theorem bind {x : MatchM α} {y : MatchM β} {f : α → MatchM γ} {g : β → MatchM δ} {P : α → β → Prop}
    {Q : γ → δ → Prop} (hxy : Agree Rel Fail x y P)
    (hfg : ∀ a b, P a b → Agree Rel Fail (f a) (g b) Q) : Agree Rel Fail (x >>= f) (y >>= g) Q :=
  fun s t hst => (hxy s t hst).bind hfg

/-- Looking at the states changes nothing. -/
theorem get_bind {f : Matcher → MatchM α} {g : Matcher → MatchM β} {Q : α → β → Prop}
    (h : ∀ s t, Rel s t → Alike Rel Fail Q (f s s) (g t t)) :
    Agree Rel Fail (get >>= f) (get >>= g) Q := h

/-- A change of the states that keeps them related. -/
theorem modified {f g : Matcher → Matcher} (h : ∀ s t, Rel s t → Rel (f s) (g t)) :
    Agree Rel Fail (modify f : MatchM Unit) (modify g) fun _ _ => True :=
  fun s t hst => ⟨h s t hst, trivial⟩

/-- A trial that decides whether to go on. -/
theorem goOn {x y next next' : MatchM Bool} (h : Agree Rel Fail x y Eq)
    (hnext : Agree Rel Fail next next' Eq) :
    Agree Rel Fail (do if ← x then next else return false) (do if ← y then next' else return false)
      Eq := by
  refine h.bind ?_
  rintro matched _ rfl
  split
  · exact hnext
  · exact Agree.pure rfl

/-- **Attributes that are fetched alike one by one are fetched alike in turn**, one for each name. -/
theorem attributePartsOf {V : AccessPath → Value → Value → Prop} {path : AccessPath} {v w : Value}
    (hfetch : ∀ name, Agree Rel Fail (observe (.attribute? path v name))
      (observe (.attribute? path w name)) fun a b =>
        a = b ∧ ∀ x, a = some x → V (path.push (.field name)) x x) (names : List Name) :
    Agree Rel Fail (Matcher.attributePartsOf v path names) (Matcher.attributePartsOf w path names)
      fun a b => a = b ∧ ∀ parts, a = some parts → parts.length = names.length ∧
        ∀ part ∈ parts, V (path.push part.step) part.value part.value := by
  induction names with
  | nil =>
    refine Agree.pure ⟨rfl, fun parts hparts => ?_⟩
    cases hparts
    exact ⟨rfl, fun part hpart => by cases hpart⟩
  | cons name rest ih =>
    rw [Matcher.attributePartsOf, Matcher.attributePartsOf]
    refine (hfetch name).bind ?_
    rintro found _ ⟨rfl, hfound⟩
    cases found with
    | none => exact Agree.pure ⟨rfl, fun _ h => by cases h⟩
    | some value =>
      refine ih.bind ?_
      rintro parts _ ⟨rfl, hparts⟩
      refine Agree.pure ⟨rfl, fun all hall => ?_⟩
      obtain ⟨tail, htail, rfl⟩ := Option.map_eq_some_iff.mp hall
      obtain ⟨hlength, hshown⟩ := hparts tail htail
      exact ⟨by simp only [List.length_cons, hlength],
        List.forall_mem_cons.mpr ⟨hfound value rfl, hshown⟩⟩

end Agree

/-! ## What is asked of the steps -/

/-- What is shown to a sub-pattern at a part of a value is related on the two sides. A slice is not made
    yet: the two lists that will be made are related. -/
def Shows (Rel Fail : Matcher → Matcher → Prop) (V : AccessPath → Value → Value → Prop)
    (path : AccessPath) : Target → Prop
  | .part piece => V (path.push piece.step) piece.value piece.value
  | .slice start items => Agree Rel Fail (newList items) (newList items)
      (V (path.push (.slice start (start + items.length))))

/-- **What is asked of the steps of two matchers.** Each step is done on both sides, on related values
    and from related states, with answers that are alike. -/
structure Correspondence (Rel Fail : Matcher → Matcher → Prop)
    (V : AccessPath → Value → Value → Prop) (B : Value → Value → Prop) : Prop where
  thrown : ∀ {s t}, Rel s t → Fail s t
  limit : ∀ {s t}, Rel s t → s.limitReached? = t.limitReached?
  deeper : ∀ {s t}, Rel s t → Rel { s with depth := s.depth + 1 } { t with depth := t.depth + 1 }
  shallower : ∀ {s t}, Rel s t → Rel { s with depth := s.depth - 1 } { t with depth := t.depth - 1 }
  failsShallower : ∀ {s t}, Fail s t →
    Fail { s with depth := s.depth - 1 } { t with depth := t.depth - 1 }
  mark : ∀ {s t}, Rel s t → s.bindings.mark = t.bindings.mark
  truncate : ∀ {s t} mark, Rel s t →
    Rel { s with bindings := s.bindings.truncate mark } { t with bindings := t.bindings.truncate mark }
  bind : ∀ {s t v w} name, B v w → Rel s t →
    Rel { s with bindings := s.bindings.bind name v } { t with bindings := t.bindings.bind name w }
  mapKey : ∀ {s t}, Rel s t → s.host.mapKey = t.host.mapKey
  type : ∀ {path v w}, V path v w → v.type = w.type
  bound : ∀ {path v w}, V path v w → B v w
  kindOf : ∀ {path v w}, V path v w → Agree Rel Fail (kindOf v) (kindOf w) Eq
  elements : ∀ {path v w}, V path v w →
    Agree Rel Fail (observe (.elements path v)) (observe (.elements path w)) fun xs ys =>
      xs = ys ∧ ∀ target : Target, target.Among xs → Shows Rel Fail V path target
  mapping : ∀ {path v w}, V path v w →
    Agree Rel Fail (observe (.mapping path v)) (observe (.mapping path w)) fun a b =>
      a = b ∧ ∀ key x, a.get? key = some x → V (path.push (.key key)) x x
  components : ∀ {path v w}, V path v w →
    Agree Rel Fail (observe (.components path v)) (observe (.components path w)) fun xs ys =>
      xs = ys ∧ ∀ part : Part, part.Among xs → V (path.push part.step) part.value part.value
  declared : ∀ {path v w}, V path v w →
    Agree Rel Fail (observe (.declared path v)) (observe (.declared path w)) Eq
  fetch : ∀ {path v w} name, V path v w →
    Agree Rel Fail (observe (.attribute? path v name)) (observe (.attribute? path w name)) fun a b =>
      a = b ∧ ∀ x, a = some x → V (path.push (.field name)) x x
  isInstance : ∀ {path v w} type, V path v w →
    Agree Rel Fail (askHost (.isInstance v type)) (askHost (.isInstance w type)) Eq
  equals : ∀ {path v w} expected, V path v w →
    Agree Rel Fail (askHost (.equals v expected)) (askHost (.equals w expected)) Eq
  literal : ∀ {path v w} constant, V path v w →
    Agree Rel Fail (matchLiteral constant v) (matchLiteral constant w) Eq
  value : ∀ expr, Agree Rel Fail (askHost (.value expr)) (askHost (.value expr)) Eq
  newDict : ∀ entries, Agree Rel Fail (newDict entries) (newDict entries) B

namespace Correspondence

variable {Rel Fail : Matcher → Matcher → Prop} {V : AccessPath → Value → Value → Prop}
  {B : Value → Value → Prop}

theorem raise (c : Correspondence Rel Fail V B) (e : MatchError) {Q : α → β → Prop} :
    Agree Rel Fail (throw e : MatchM α) (throw e : MatchM β) Q :=
  fun _ _ hst => ⟨rfl, c.thrown hst⟩

/-- One level deeper, on both sides or on none. -/
theorem descendFrom (c : Correspondence Rel Fail V B) {x y : MatchM Bool} {s t : Matcher}
    (hst : Rel s t)
    (h : Alike Rel Fail Eq (x { s with depth := s.depth + 1 }) (y { t with depth := t.depth + 1 })) :
    Alike Rel Fail Eq (Matcher.descend x s) (Matcher.descend y t) := by
  unfold Matcher.descend
  rw [← c.limit hst]
  cases s.limitReached? with
  | some limit => exact ⟨rfl, c.thrown hst⟩
  | none =>
    dsimp only
    cases hx : x { s with depth := s.depth + 1 } with
    | ok matched u =>
      rw [hx] at h
      obtain ⟨matched', v, hy, huv, hmatched⟩ := h.of_ok
      rw [hy]
      exact ⟨c.shallower huv, hmatched⟩
    | error e u =>
      rw [hx] at h
      obtain ⟨v, hy, hfail⟩ := h.of_error
      rw [hy]
      exact ⟨rfl, c.failsShallower hfail⟩

theorem descend (c : Correspondence Rel Fail V B) {x y : MatchM Bool} (h : Agree Rel Fail x y Eq) :
    Agree Rel Fail (Matcher.descend x) (Matcher.descend y) Eq :=
  fun _ _ hst => c.descendFrom hst (h _ _ (c.deeper hst))

/-- A trial drops the same bindings on both sides. -/
theorem attempt (c : Correspondence Rel Fail V B) {x y : MatchM Bool} (h : Agree Rel Fail x y Eq) :
    Agree Rel Fail (Matcher.attempt x) (Matcher.attempt y) Eq := by
  unfold Matcher.attempt
  refine Agree.get_bind fun s t hst => ?_
  rw [← c.mark hst]
  refine (h.bind ?_) s t hst
  rintro matched _ rfl
  split
  · exact Agree.pure rfl
  · exact (Agree.modified fun _ _ h => c.truncate _ h).bind fun _ _ _ => Agree.pure rfl

theorem bindName (c : Correspondence Rel Fail V B) (name : Name) {v w : Value} (h : B v w) :
    Agree Rel Fail (Matcher.bind name v) (Matcher.bind name w) fun _ _ => True :=
  Agree.modified fun _ _ hst => c.bind name h hst

/-! ## The parts of a value -/

theorem sequenceTargets (c : Correspondence Rel Fail V B) {path : AccessPath} {v w : Value}
    (h : V path v w) (count : Nat) (star : Option Nat) :
    Agree Rel Fail (Matcher.sequenceTargets count star v path)
      (Matcher.sequenceTargets count star w path) fun a b =>
        a = b ∧ ∀ targets, a = some targets → ∀ target ∈ targets, Shows Rel Fail V path target := by
  unfold Matcher.sequenceTargets
  refine (c.kindOf h).bind ?_
  rintro kind _ rfl
  split
  · refine (c.elements h).bind ?_
    rintro elements _ ⟨rfl, hshows⟩
    rw [splitElements_eq]
    exact Agree.pure ⟨rfl, fun targets htargets target htarget =>
      hshows target (among_of_splitTargets htargets target htarget)⟩
  · exact Agree.pure ⟨rfl, fun _ h => by cases h⟩

theorem keyIdentity (c : Correspondence Rel Fail V B) (key : MappingKey) :
    Agree Rel Fail (Matcher.keyIdentity key) (Matcher.keyIdentity key) Eq := by
  cases key with
  | literal constant => exact Agree.pure rfl
  | computed expr =>
    refine (c.value expr).bind ?_
    rintro key _ rfl
    refine Agree.get_bind fun s t hst => ?_
    rw [← c.mapKey hst]
    cases s.host.mapKey key with
    | some identity => exact Agree.pure rfl s t hst
    | none => exact c.raise _ s t hst

/-- **Present keys come with the values that the view has for them.** -/
theorem presentKeys (c : Correspondence Rel Fail V B) (view : MappingView Value)
    (keys : List MappingKey) :
    Agree Rel Fail (Matcher.presentKeys view keys) (Matcher.presentKeys view keys) fun a b =>
      a = b ∧ ∀ found, a = some found → ∀ slot ∈ found, view.get? slot.1 = some slot.2 := by
  induction keys with
  | nil =>
    refine Agree.pure ⟨rfl, fun found hfound slot hslot => ?_⟩
    cases hfound
    cases hslot
  | cons key rest ih =>
    rw [Matcher.presentKeys]
    refine (c.keyIdentity key).bind ?_
    rintro identity _ rfl
    split
    · exact Agree.pure ⟨rfl, fun _ h => by cases h⟩
    · rename_i value hvalue
      refine ih.bind ?_
      rintro found _ ⟨rfl, hfound⟩
      refine Agree.pure ⟨rfl, fun all hall => ?_⟩
      obtain ⟨tail, htail, rfl⟩ := Option.map_eq_some_iff.mp hall
      exact List.forall_mem_cons.mpr ⟨hvalue, hfound tail htail⟩

theorem mappingParts (c : Correspondence Rel Fail V B) {path : AccessPath} {v w : Value}
    (h : V path v w) (keys : List MappingKey) (rest : Option Name) :
    Agree Rel Fail (Matcher.mappingParts keys rest v path) (Matcher.mappingParts keys rest w path)
      fun a b => a = b ∧ ∀ found, a = some found → ∀ part ∈ found.1,
        V (path.push part.step) part.value part.value := by
  unfold Matcher.mappingParts
  refine (c.kindOf h).bind ?_
  rintro kind _ rfl
  split
  · refine (c.mapping h).bind ?_
    rintro view _ ⟨rfl, hview⟩
    split
    · refine (c.presentKeys view keys).bind ?_
      rintro present _ ⟨rfl, hpresent⟩
      refine Agree.pure ⟨rfl, fun found hfound part hpart => ?_⟩
      obtain ⟨slots, hslots, rfl⟩ := Option.map_eq_some_iff.mp hfound
      obtain ⟨slot, hslot, rfl⟩ := List.mem_map.mp hpart
      exact hview _ _ (hpresent slots hslots slot hslot)
    · exact Agree.pure ⟨rfl, fun _ h => by cases h⟩
  · exact Agree.pure ⟨rfl, fun _ h => by cases h⟩

/-! ## The parts of an instance -/

/-- The positions of keywords are the same and lie below the number of components. -/
theorem keywordSlots (c : Correspondence Rel Fail V B) {path : AccessPath} {v w : Value}
    (h : V path v w) (keywords : List Name) (consumed length : Nat) :
    Agree Rel Fail (Matcher.keywordSlots keywords consumed length v path)
      (Matcher.keywordSlots keywords consumed length w path) fun slots slots' =>
        slots = slots' ∧ ∀ index ∈ slots, index < length := by
  unfold Matcher.keywordSlots
  split
  · exact Agree.pure ⟨rfl, fun _ h => by cases h⟩
  · refine (c.declared h).bind ?_
    rintro declared _ rfl
    rw [c.type h]
    split
    · exact c.raise _
    · rename_i slots hslots
      split
      · exact c.raise _
      · rename_i hnone
        exact Agree.pure ⟨rfl, lt_of_outOfRange?_none (length_resolveKeywordsFrom hslots) hnone⟩

/-- Every part is related on the two sides. -/
def ShowsParts (V : AccessPath → Value → Value → Prop) (path : AccessPath)
    (found : Option (List Part × List Part)) : Prop :=
  ∀ parts, found = some parts →
    (∀ part ∈ parts.1, V (path.push part.step) part.value part.value) ∧
      ∀ part ∈ parts.2, V (path.push part.step) part.value part.value

theorem componentParts (c : Correspondence Rel Fail V B) {path : AccessPath} {v w : Value}
    (h : V path v w) (positional : Nat) (keywords : List Name) :
    Agree Rel Fail (Matcher.componentParts positional keywords v path)
      (Matcher.componentParts positional keywords w path) fun a b =>
        a = b ∧ ShowsParts V path a := by
  unfold Matcher.componentParts
  refine (c.components h).bind ?_
  rintro components _ ⟨rfl, hshows⟩
  split
  · exact Agree.pure ⟨rfl, fun _ h => by cases h⟩
  · rename_i hmany
    refine (c.keywordSlots h keywords positional components.length).bind ?_
    rintro slots _ ⟨rfl, hbelow⟩
    have hle : positional ≤ components.length := by omega
    -- The number of components and the positions were checked, so that taking them cannot fail.
    simp only [cutAt_of_le hle, pure_bind, componentPartsAt_eq hbelow]
    refine Agree.pure ⟨rfl, fun parts hparts => ?_⟩
    cases hparts
    exact ⟨fun part hpart => hshows part (among_componentPartsFrom components positional part hpart),
      fun part hpart => hshows part (among_partsAt components slots part hpart)⟩

theorem attributePartsOf (c : Correspondence Rel Fail V B) {path : AccessPath} {v w : Value}
    (h : V path v w) (names : List Name) :
    Agree Rel Fail (Matcher.attributePartsOf v path names) (Matcher.attributePartsOf w path names)
      fun a b => a = b ∧ ∀ parts, a = some parts → ∀ part ∈ parts,
        V (path.push part.step) part.value part.value :=
  (Agree.attributePartsOf (fun name => c.fetch name h) names).weaken fun _ _ hab =>
    ⟨hab.1, fun parts hparts => (hab.2 parts hparts).2⟩

theorem positionalNames (c : Correspondence Rel Fail V B) {path : AccessPath} {v w : Value}
    (h : V path v w) (type : TypeId) (positional : Nat) :
    Agree Rel Fail (Matcher.positionalNames type positional v path)
      (Matcher.positionalNames type positional w path) Eq := by
  unfold Matcher.positionalNames
  split
  · exact Agree.pure rfl
  · refine (c.declared h).bind ?_
    rintro declared _ rfl
    split
    · exact (c.raise (Q := fun _ _ => False) _).bind fun _ _ h => h.elim
    · rename_i hmany
      rw [cutAt_of_le (by omega), pure_bind]
      exact Agree.pure rfl

theorem attributeParts (c : Correspondence Rel Fail V B) {path : AccessPath} {v w : Value}
    (h : V path v w) (type : TypeId) (positional : Nat) (keywords : List Name) :
    Agree Rel Fail (Matcher.attributeParts type positional keywords v path)
      (Matcher.attributeParts type positional keywords w path) fun a b =>
        a = b ∧ ShowsParts V path a := by
  unfold Matcher.attributeParts
  refine (c.positionalNames h type positional).bind ?_
  rintro names _ rfl
  have hkeywords : Agree Rel Fail (Matcher.keywordNames names keywords)
      (Matcher.keywordNames names keywords) Eq := by
    unfold Matcher.keywordNames
    split
    · exact Agree.pure rfl
    · exact c.raise _
  refine hkeywords.bind ?_
  rintro found _ rfl
  refine (c.attributePartsOf h (names ++ found)).bind ?_
  rintro parts _ ⟨rfl, hparts⟩
  cases parts with
  | none => exact Agree.pure ⟨rfl, fun _ h => by cases h⟩
  | some parts =>
    -- The judgement knows nothing of lengths: were the list too short, both sides would fail alike.
    rcases Nat.lt_or_ge parts.length positional with hlt | hle
    · simp only [cutAt_of_lt hlt]
      exact (c.raise (Q := fun _ _ => False) _).bind fun _ _ h => h.elim
    · simp only [cutAt_of_le hle, pure_bind]
      refine Agree.pure ⟨rfl, fun all hall => ?_⟩
      cases hall
      exact ⟨fun part hpart => hparts parts rfl part (List.mem_of_mem_take hpart),
        fun part hpart => hparts parts rfl part (List.mem_of_mem_drop hpart)⟩

theorem classTargets (c : Correspondence Rel Fail V B) {path : AccessPath} {v w : Value}
    (h : V path v w) (type : TypeId) (positional : Nat) (keywords : List Name) :
    Agree Rel Fail (Matcher.classTargets type positional keywords v path)
      (Matcher.classTargets type positional keywords w path) fun a b =>
        a = b ∧ ∀ first second, a = .parts first second → ShowsParts V path (some (first, second)) := by
  have hofParts (found : Option (List Part × List Part)) (hfound : ShowsParts V path found) :
      ∀ first second, ClassTargets.ofParts found = .parts first second →
        ShowsParts V path (some (first, second)) := by
    intro first second heq
    cases found with
    | none => cases heq
    | some parts =>
      cases heq
      exact hfound
  unfold Matcher.classTargets
  refine (c.kindOf h).bind ?_
  rintro kind _ rfl
  split
  · exact Agree.pure ⟨rfl, fun _ _ h => by cases h⟩
  · refine Agree.pure ⟨rfl, fun _ _ h => ?_⟩
    split at h <;> cases h
  · refine (c.componentParts h positional keywords).bind ?_
    rintro parts _ ⟨rfl, hparts⟩
    exact Agree.pure ⟨rfl, hofParts parts hparts⟩
  · refine (c.attributeParts h type positional keywords).bind ?_
    rintro parts _ ⟨rfl, hparts⟩
    exact Agree.pure ⟨rfl, hofParts parts hparts⟩

/-! ## Patterns -/

theorem matchValueRef (c : Correspondence Rel Fail V B) {path : AccessPath} {v w : Value}
    (h : V path v w) (expr : ExprRef) :
    Agree Rel Fail (Matcher.matchValueRef expr v) (Matcher.matchValueRef expr w) Eq := by
  unfold Matcher.matchValueRef
  refine (c.value expr).bind ?_
  rintro expected _ rfl
  exact c.equals expected h

theorem bindRest (c : Correspondence Rel Fail V B) (rest : Option Name)
    (left : List (Value × Value)) :
    Agree Rel Fail (Matcher.bindRest rest left) (Matcher.bindRest rest left) fun _ _ => True := by
  cases rest with
  | none => exact Agree.pure trivial
  | some name => exact (c.newDict left).bind fun _ _ hdict => c.bindName name hdict

-- The induction follows the matcher: one lemma per function of the mutual recursion.
mutual
/-- **A pattern does the same on both sides.** -/
theorem matchPattern (c : Correspondence Rel Fail V B) : (pattern : Pattern) → (v w : Value) →
    (path : AccessPath) → V path v w →
    Agree Rel Fail (Matcher.matchPattern pattern v path) (Matcher.matchPattern pattern w path) Eq
  | .wildcard, v, w, path, h => by
    rw [Matcher.matchPattern, Matcher.matchPattern]
    exact c.descend (Agree.pure rfl)
  | .capture name, v, w, path, h => by
    rw [Matcher.matchPattern, Matcher.matchPattern]
    exact c.descend ((c.bindName name (c.bound h)).bind fun _ _ _ => Agree.pure rfl)
  | .literal constant, v, w, path, h => by
    rw [Matcher.matchPattern, Matcher.matchPattern]
    exact c.descend (c.literal constant h)
  | .valueRef expr, v, w, path, h => by
    rw [Matcher.matchPattern, Matcher.matchPattern]
    exact c.descend (c.matchValueRef h expr)
  | .sequence items star, v, w, path, h => by
    rw [Matcher.matchPattern, Matcher.matchPattern]
    refine c.descend ((c.sequenceTargets h items.length star).bind ?_)
    rintro targets _ ⟨rfl, htargets⟩
    cases targets with
    | none => exact Agree.pure rfl
    | some targets => exact c.matchItems items targets path (htargets targets rfl)
  | .mapping entries rest, v, w, path, h => by
    rw [Matcher.matchPattern, Matcher.matchPattern]
    have hparts := c.mappingParts h (entries.map (·.1)) rest
    refine c.descend (hparts.bind ?_)
    rintro found _ ⟨rfl, hfound⟩
    cases found with
    | none => exact Agree.pure rfl
    | some found =>
      obtain ⟨parts, left⟩ := found
      refine Agree.goOn (c.matchEntries entries parts path (hfound _ rfl)) ?_
      exact (c.bindRest rest left).bind fun _ _ _ => Agree.pure rfl
  | .ofClass type positional keywords, v, w, path, h => by
    rw [Matcher.matchPattern, Matcher.matchPattern]
    refine c.descend ((c.isInstance type h).bind ?_)
    rintro isInstance _ rfl
    split
    · exact Agree.pure rfl
    · split
      · exact Agree.pure rfl
      · have hclass := c.classTargets h type positional.length (keywords.map (·.1))
        refine hclass.bind ?_
        rintro targets _ ⟨rfl, htargets⟩
        cases targets with
        | none => exact Agree.pure rfl
        | itself =>
          have hself := c.matchItself positional v w path h
          refine Agree.goOn hself ?_
          have hattributes := c.attributeParts h type 0 (keywords.map (·.1))
          refine hattributes.bind ?_
          rintro found _ ⟨rfl, hfound⟩
          cases found with
          | none => exact Agree.pure rfl
          | some parts => exact c.matchKeywords keywords parts.2 path (hfound parts rfl).2
        | parts first second =>
          obtain ⟨hfirst, hsecond⟩ := htargets first second rfl _ rfl
          have hitems : ∀ target ∈ first.map Target.part, Shows Rel Fail V path target := by
            intro target htarget
            obtain ⟨part, hpart, rfl⟩ := List.mem_map.mp htarget
            exact hfirst part hpart
          have hfirst := c.matchItems positional (first.map .part) path hitems
          exact Agree.goOn hfirst (c.matchKeywords keywords second path hsecond)
  | .named inner name, v, w, path, h => by
    rw [Matcher.matchPattern, Matcher.matchPattern]
    refine c.descend (Agree.goOn (c.matchPattern inner v w path h) ?_)
    exact (c.bindName name (c.bound h)).bind fun _ _ _ => Agree.pure rfl
  | .anyOf alternatives, v, w, path, h => by
    rw [Matcher.matchPattern, Matcher.matchPattern]
    exact c.descend (c.matchFirst alternatives v w path h)

theorem matchItself (c : Correspondence Rel Fail V B) : (patterns : List Pattern) → (v w : Value) →
    (path : AccessPath) → V path v w →
    Agree Rel Fail (Matcher.matchItself patterns v path) (Matcher.matchItself patterns w path) Eq
  | [], _, _, _, _ => Agree.pure rfl
  | [pattern], v, w, path, h => c.matchPattern pattern v w path h
  | _ :: _ :: _, _, _, _, _ => Agree.pure rfl

theorem matchItems (c : Correspondence Rel Fail V B) : (patterns : List Pattern) →
    (targets : List Target) → (path : AccessPath) →
    (∀ target ∈ targets, Shows Rel Fail V path target) →
    Agree Rel Fail (Matcher.matchItems patterns targets path)
      (Matcher.matchItems patterns targets path) Eq
  | [], targets, path, h => by
    rw [Matcher.matchItems]
    exact Agree.pure rfl
  | pattern :: rest, [], path, h => by
    rw [Matcher.matchItems]
    exact c.raise _
  | pattern :: rest, .part part :: targets, path, h => by
    obtain ⟨hpart, htargets⟩ := List.forall_mem_cons.mp h
    rw [Matcher.matchItems]
    exact Agree.goOn (c.matchPattern pattern _ _ _ hpart) (c.matchItems rest targets path htargets)
  | pattern :: rest, .slice start items :: targets, path, h => by
    obtain ⟨hslice, htargets⟩ := List.forall_mem_cons.mp h
    have hrest := c.matchItems rest targets path htargets
    rw [Matcher.matchItems]
    split
    · exact hrest
    · exact hslice.bind fun v w hvw => Agree.goOn (c.matchPattern pattern v w _ hvw) hrest

theorem matchEntries (c : Correspondence Rel Fail V B) : (entries : List (MappingKey × Pattern)) →
    (parts : List Part) → (path : AccessPath) →
    (∀ part ∈ parts, V (path.push part.step) part.value part.value) →
    Agree Rel Fail (Matcher.matchEntries entries parts path)
      (Matcher.matchEntries entries parts path) Eq
  | [], parts, path, h => by
    rw [Matcher.matchEntries]
    exact Agree.pure rfl
  | entry :: rest, [], path, h => by
    rw [Matcher.matchEntries]
    exact c.raise _
  | (_, pattern) :: rest, part :: parts, path, h => by
    obtain ⟨hpart, hparts⟩ := List.forall_mem_cons.mp h
    rw [Matcher.matchEntries]
    exact Agree.goOn (c.matchPattern pattern _ _ _ hpart) (c.matchEntries rest parts path hparts)

theorem matchKeywords (c : Correspondence Rel Fail V B) : (keywords : List (Name × Pattern)) →
    (parts : List Part) → (path : AccessPath) →
    (∀ part ∈ parts, V (path.push part.step) part.value part.value) →
    Agree Rel Fail (Matcher.matchKeywords keywords parts path)
      (Matcher.matchKeywords keywords parts path) Eq
  | [], parts, path, h => by
    rw [Matcher.matchKeywords]
    exact Agree.pure rfl
  | keyword :: rest, [], path, h => by
    rw [Matcher.matchKeywords]
    exact c.raise _
  | (_, pattern) :: rest, part :: parts, path, h => by
    obtain ⟨hpart, hparts⟩ := List.forall_mem_cons.mp h
    rw [Matcher.matchKeywords]
    exact Agree.goOn (c.matchPattern pattern _ _ _ hpart) (c.matchKeywords rest parts path hparts)

theorem matchFirst (c : Correspondence Rel Fail V B) : (alternatives : List Pattern) →
    (v w : Value) → (path : AccessPath) → V path v w →
    Agree Rel Fail (Matcher.matchFirst alternatives v path) (Matcher.matchFirst alternatives w path) Eq
  | [], v, w, path, h => by
    rw [Matcher.matchFirst, Matcher.matchFirst]
    exact Agree.pure rfl
  | pattern :: rest, v, w, path, h => by
    rw [Matcher.matchFirst, Matcher.matchFirst]
    refine (c.attempt (c.matchPattern pattern v w path h)).bind ?_
    rintro matched _ rfl
    split
    · exact Agree.pure rfl
    · exact c.matchFirst rest v w path h
end

end Correspondence

/-! ## Clauses -/

/-- The steps between patterns: bindings are dropped, compared and given to guards. -/
structure RunCorrespondence (Rel Fail : Matcher → Matcher → Prop)
    (V : AccessPath → Value → Value → Prop) (B : Value → Value → Prop) : Prop
    extends Correspondence Rel Fail V B where
  reset : ∀ {s t}, Rel s t → Rel s.cleared t.cleared
  bindings : ∀ {s t}, Rel s t →
    s.bindings.Related B t.bindings
  guard : ∀ {s t} guard, Rel s t →
    Alike Rel Fail Eq (askHost (.guard guard s.bindings) s) (askHost (.guard guard t.bindings) t)

/-- Two clauses have the same outcome: they both lose, or both win with the same body and bindings that
    are related. -/
inductive SameOutcome (B : Value → Value → Prop) (i j : Nat) (body : BodyRef) :
    Option Outcome → Option Outcome → Prop
  | lost : SameOutcome B i j body none none
  | won {a b : Bindings Value} : a.Related B b →
      SameOutcome B i j body (some (.matched i body a)) (some (.matched j body b))

namespace RunCorrespondence

variable {Rel Fail : Matcher → Matcher → Prop} {V : AccessPath → Value → Value → Prop}
  {B : Value → Value → Prop}

/-- **What follows the pattern of a clause is the same on both sides**, whatever the two indices are. -/
theorem settle (c : RunCorrespondence Rel Fail V B) (clause : Clause) (i j : Nat) (matched : Bool) :
    Agree Rel Fail (Matcher.settle i clause matched) (Matcher.settle j clause matched)
      (SameOutcome B i j clause.body) := by
  have hreset : Agree Rel Fail resetBindings resetBindings fun _ _ => True :=
    Agree.modified fun _ _ h => c.reset h
  have hguard : Agree Rel Fail (checkGuard clause.guard) (checkGuard clause.guard) Eq := by
    cases clause.guard with
    | none => exact Agree.pure rfl
    | some guard => exact Agree.get_bind fun _ _ hst => c.guard guard hst
  have htake : Agree Rel Fail takeBindings takeBindings fun a b =>
      a.Related B b :=
    fun _ _ hst => ⟨c.reset hst, c.bindings hst⟩
  unfold Matcher.settle
  split
  · exact Agree.pure .lost
  · refine hguard.bind ?_
    rintro passed _ rfl
    split
    · exact hreset.bind fun _ _ _ => Agree.pure .lost
    · exact htake.bind fun _ _ h => Agree.pure (.won h)

/-- **A clause does the same on both sides.** -/
theorem matchClause (c : RunCorrespondence Rel Fail V B) (clause : Clause) (i j : Nat)
    {subject : Value} (h : V .root subject subject) :
    Agree Rel Fail (Matcher.matchPattern clause.pattern subject .root >>= Matcher.settle i clause)
      (Matcher.matchPattern clause.pattern subject .root >>= Matcher.settle j clause)
      (SameOutcome B i j clause.body) := by
  refine (c.matchPattern clause.pattern subject subject .root h).bind ?_
  rintro matched _ rfl
  exact c.settle clause i j matched

/-! ### Runs over all clauses -/

variable {statement : Statement} {subject : Value}

theorem tryClause (c : RunCorrespondence Rel Fail V B) (h : V .root subject subject) (index : Nat) :
    Agree Rel Fail (Matcher.tryClause statement subject index)
      (Matcher.tryClause statement subject index) (Option.Rel (Outcome.Related B)) := by
  intro s t hst
  cases hclause : statement.clauses[index]? with
  | none =>
    rw [tryClause_of_noClause hclause, tryClause_of_noClause hclause]
    exact ⟨hst, .none⟩
  | some clause =>
    rw [tryClause_eq hclause, tryClause_eq hclause]
    refine (c.matchClause clause index index h _ _ (c.reset hst)).weaken fun a b hab => ?_
    cases hab with
    | lost => exact .none
    | won hrelated => exact .some (.matched hrelated)

/-- Going on with the next clauses where the ones before lost. -/
theorem orElse {x y next next' : MatchM (Option Outcome)}
    (h : Agree Rel Fail x y (Option.Rel (Outcome.Related B)))
    (hnext : Agree Rel Fail next next' (Option.Rel (Outcome.Related B))) :
    Agree Rel Fail
      (do match ← x with
          | some outcome => return some outcome
          | none => next)
      (do match ← y with
          | some outcome => return some outcome
          | none => next')
      (Option.Rel (Outcome.Related B)) := by
  refine h.bind fun a b hab => ?_
  cases hab with
  | none => exact hnext
  | some houtcome => exact Agree.pure (.some houtcome)

theorem tryEach (c : RunCorrespondence Rel Fail V B) (h : V .root subject subject)
    (indices : List Nat) :
    Agree Rel Fail (Matcher.tryEach statement subject indices)
      (Matcher.tryEach statement subject indices) (Option.Rel (Outcome.Related B)) := by
  induction indices with
  | nil => exact Agree.pure .none
  | cons index rest ih =>
    rw [Matcher.tryEach]
    exact orElse (c.tryClause h index) ih

theorem stepCandidates (c : RunCorrespondence Rel Fail V B) (h : V .root subject subject)
    (step : PlanStep) :
    Agree Rel Fail (Matcher.stepCandidates subject step) (Matcher.stepCandidates subject step) Eq := by
  cases step with
  | clause index => exact Agree.pure rfl
  | sequenceLane clauses dispatch =>
    refine (c.kindOf h).bind ?_
    rintro kind _ rfl
    split
    · refine (c.elements h).bind ?_
      rintro elements _ ⟨rfl, -⟩
      exact Agree.pure rfl
    · exact Agree.pure rfl
  | mappingLane clauses tree =>
    refine (c.kindOf h).bind ?_
    rintro kind _ rfl
    split
    · refine (c.mapping h).bind ?_
      rintro view _ ⟨rfl, -⟩
      exact Agree.pure rfl
    · exact Agree.pure rfl

theorem runSteps (c : RunCorrespondence Rel Fail V B) (h : V .root subject subject)
    (steps : List PlanStep) :
    Agree Rel Fail (Matcher.runSteps statement subject steps)
      (Matcher.runSteps statement subject steps) (Option.Rel (Outcome.Related B)) := by
  induction steps with
  | nil => exact Agree.pure .none
  | cons step rest ih =>
    rw [Matcher.runSteps]
    refine (c.stepCandidates h step).bind ?_
    rintro indices _ rfl
    exact orElse (c.tryEach h indices) ih

/-- The outcome of a run whose search gave the same on both sides. -/
theorem outcome {x y : MatchM (Option Outcome)}
    (h : Agree Rel Fail x y (Option.Rel (Outcome.Related B))) :
    Agree Rel Fail (do return (← x).getD .noMatch) (do return (← y).getD .noMatch)
      (Outcome.Related B) := by
  refine h.bind fun a b hab => ?_
  cases hab with
  | none => exact Agree.pure .noMatch
  | some houtcome => exact Agree.pure houtcome

/-- **Trying every clause gives the same outcome on both sides.** -/
theorem runInOrder (c : RunCorrespondence Rel Fail V B) (statement : Statement)
    (h : V .root subject subject) :
    Agree Rel Fail (Matcher.runInOrder statement subject) (Matcher.runInOrder statement subject)
      (Outcome.Related B) :=
  outcome (c.tryEach h _)

/-- **Following a plan gives the same outcome on both sides.** -/
theorem runPlan (c : RunCorrespondence Rel Fail V B) (statement : Statement) (plan : Plan)
    (h : V .root subject subject) :
    Agree Rel Fail (Matcher.runPlan statement plan subject) (Matcher.runPlan statement plan subject)
      (Outcome.Related B) :=
  outcome (c.runSteps h plan.steps)

end RunCorrespondence

end Matcher

end StructuralMatch

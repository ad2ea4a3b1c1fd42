import StructuralMatch.Proofs.Frame

/-!
# `Proofs.Retention` — what is known stays known

The memory of an evaluation has a slot for each answer about a part. A slot is filled by the first answer
and never changed afterwards, and a kind that was resolved is never resolved again.

* `Fills` says how one way of looking at a part uses its slot; there are five of them.
* `Remembers` relates a state to every later one (`Remembers.evolution`).
* What has been looked at may be looked at again: the answer is the same and the state stays as it is
  (`kindOf_again`, `observe_again`).
-/

namespace StructuralMatch

/-! ## Slots -/

namespace NodeMemo

/-- Whether the answer for a slot is in memory. -/
def knows (memo : NodeMemo) : Slot → Bool
  | .elements => memo.elements.isSome
  | .mapping => memo.mapping.isSome
  | .components => memo.components.isSome
  | .declared => memo.declared.isSome
  | .field name => (memo.attributes.lookup name).isSome

/-- Every answer of the first memo is an answer of the second. -/
structure Within (a b : NodeMemo) : Prop where
  elements : ∀ items, a.elements = some items → b.elements = some items
  mapping : ∀ view, a.mapping = some view → b.mapping = some view
  components : ∀ items, a.components = some items → b.components = some items
  declared : ∀ names, a.declared = some names → b.declared = some names
  attributes : ∀ name found, a.attributes.lookup name = some found →
    b.attributes.lookup name = some found

namespace Within

theorem refl (memo : NodeMemo) : memo.Within memo :=
  ⟨fun _ h => h, fun _ h => h, fun _ h => h, fun _ h => h, fun _ _ h => h⟩

theorem trans {a b c : NodeMemo} (hab : a.Within b) (hbc : b.Within c) : a.Within c where
  elements _ h := hbc.elements _ (hab.elements _ h)
  mapping _ h := hbc.mapping _ (hab.mapping _ h)
  components _ h := hbc.components _ (hab.components _ h)
  declared _ h := hbc.declared _ (hab.declared _ h)
  attributes _ _ h := hbc.attributes _ _ (hab.attributes _ _ h)

theorem knows {a b : NodeMemo} (h : a.Within b) {slot : Slot} (hknows : a.knows slot = true) :
    b.knows slot = true := by
  cases slot <;> obtain ⟨answer, hanswer⟩ := Option.isSome_iff_exists.mp hknows
  · exact Option.isSome_iff_exists.mpr ⟨answer, h.elements _ hanswer⟩
  · exact Option.isSome_iff_exists.mpr ⟨answer, h.mapping _ hanswer⟩
  · exact Option.isSome_iff_exists.mpr ⟨answer, h.components _ hanswer⟩
  · exact Option.isSome_iff_exists.mpr ⟨answer, h.declared _ hanswer⟩
  · exact Option.isSome_iff_exists.mpr ⟨answer, h.attributes _ _ hanswer⟩

end Within

end NodeMemo

/-- **A way of looking at a part** reads one slot, fills it with the answer to its question, and forgets
    nothing if the slot was empty. -/
structure Fills {α : Type} (slot : Slot) (read : NodeMemo → Option α)
    (keep : α → NodeMemo → NodeMemo) (question : Question α) : Prop where
  event : question.event.slot? = some slot
  reads : ∀ memo, (read memo).isSome = memo.knows slot
  keeps : ∀ a memo, read (keep a memo) = some a
  stays : ∀ {memo later : NodeMemo} {a}, memo.Within later → read memo = some a →
    read later = some a
  within : ∀ a memo, read memo = none → memo.Within (keep a memo)

theorem fills_elements (value : Value) :
    Fills .elements (·.elements) (fun items memo => { memo with elements := some items })
      (.elements value) where
  event := rfl
  reads _ := rfl
  keeps _ _ := rfl
  stays h := h.elements _
  within _ memo hempty := { NodeMemo.Within.refl memo with
    elements := fun _ h => by rw [hempty] at h; cases h }

theorem fills_mapping (value : Value) :
    Fills .mapping (·.mapping) (fun view memo => { memo with mapping := some view })
      (.mapping value) where
  event := rfl
  reads _ := rfl
  keeps _ _ := rfl
  stays h := h.mapping _
  within _ memo hempty := { NodeMemo.Within.refl memo with
    mapping := fun _ h => by rw [hempty] at h; cases h }

theorem fills_components (value : Value) :
    Fills .components (·.components) (fun items memo => { memo with components := some items })
      (.components value) where
  event := rfl
  reads _ := rfl
  keeps _ _ := rfl
  stays h := h.components _
  within _ memo hempty := { NodeMemo.Within.refl memo with
    components := fun _ h => by rw [hempty] at h; cases h }

theorem fills_declared (value : Value) :
    Fills .declared (·.declared) (fun names memo => { memo with declared := some names })
      (.matchArgs value.type) where
  event := rfl
  reads _ := rfl
  keeps _ _ := rfl
  stays h := h.declared _
  within _ memo hempty := { NodeMemo.Within.refl memo with
    declared := fun _ h => by rw [hempty] at h; cases h }

theorem fills_field (value : Value) (name : Name) :
    Fills (.field name) (·.attributes.lookup name)
      (fun found memo => { memo with attributes := (name, found) :: memo.attributes })
      (.fetch value name) where
  event := rfl
  reads _ := rfl
  keeps _ _ := List.lookup_cons_self
  stays h := h.attributes _ _
  within _ memo hempty := { NodeMemo.Within.refl memo with
    attributes := fun other _ h => by
      have hne : (other == name) = false := by
        refine beq_false_of_ne fun heq => ?_
        rw [heq, hempty] at h
        cases h
      simpa only [List.lookup_cons, hne] using h }

/-! ## The memory -/

/-- Every answer of the first memory is an answer of the second, about the same part. -/
def Scratch.Within (a b : Scratch) : Prop :=
  ∀ path memo, a.node? path = some memo →
    ∃ later : NodeMemo, b.node? path = some later ∧ memo.Within later

namespace Scratch.Within

theorem refl (scratch : Scratch) : scratch.Within scratch :=
  fun _ memo h => ⟨memo, h, .refl memo⟩

theorem trans {a b c : Scratch} (hab : a.Within b) (hbc : b.Within c) : a.Within c := by
  intro path memo h
  obtain ⟨memo', h', hwithin⟩ := hab path memo h
  obtain ⟨memo'', h'', hwithin'⟩ := hbc path memo' h'
  exact ⟨memo'', h'', hwithin.trans hwithin'⟩

theorem visit (scratch : Scratch) (path : AccessPath) : scratch.Within (scratch.visit path).2 := by
  intro other memo h
  refine ⟨memo, ?_, .refl memo⟩
  by_cases heq : other = path
  · rw [heq] at h ⊢
    rw [scratch.visit_of_node? h]
    exact h
  · rw [scratch.node?_visit_of_ne heq]
    exact h

theorem noted (scratch : Scratch) (path : AccessPath) (event : Event) :
    scratch.Within (scratch.noted path event) := visit scratch path

/-- An answer that takes an empty slot takes the place of no other. -/
theorem learnt (scratch : Scratch) (path : AccessPath) (event : Event)
    {change : NodeMemo → NodeMemo} (hchange : (scratch.memo path).Within (change (scratch.memo path))) :
    scratch.Within (scratch.learnt path event change) := by
  intro other memo h
  obtain ⟨later, hlater, hwithin⟩ := noted scratch path event other memo h
  simp only [Scratch.learnt, Scratch.node?_update, hlater, Option.map_some]
  refine ⟨_, rfl, ?_⟩
  split
  · rename_i heq
    subst heq
    have hself : (scratch.noted other event).node? other = some (scratch.memo other) :=
      scratch.node?_visit_self other
    obtain rfl := Option.some.inj (hself.symm.trans hlater)
    exact hwithin.trans hchange
  · exact hwithin

end Scratch.Within

/-- An answer that was kept is in memory. -/
theorem Scratch.node?_learnt_self (scratch : Scratch) (path : AccessPath) (event : Event)
    (change : NodeMemo → NodeMemo) :
    (scratch.learnt path event change).node? path = some (change (scratch.memo path)) := by
  have hself : (scratch.noted path event).node? path = some (scratch.memo path) :=
    scratch.node?_visit_self path
  simp only [Scratch.learnt, Scratch.node?_update, hself, Option.map_some, if_true]

/-! ## Matchers -/

namespace Matcher

/-- **What the first state knows, the second knows**: kinds of types and answers about parts. -/
structure Remembers (s t : Matcher) : Prop where
  kinds : ∀ type resolved, s.kinds.get? type = some resolved → t.kinds.get? type = some resolved
  scratch : s.scratch.Within t.scratch

namespace Remembers

theorem refl (s : Matcher) : Remembers s s := ⟨fun _ _ h => h, .refl s.scratch⟩

theorem trans {s t u : Matcher} (hst : Remembers s t) (htu : Remembers t u) : Remembers s u :=
  ⟨fun _ _ h => htu.kinds _ _ (hst.kinds _ _ h), hst.scratch.trans htu.scratch⟩

theorem of_eq {s t u : Matcher} (h : Remembers s t) (hscratch : u.scratch = t.scratch)
    (hkinds : u.kinds = t.kinds) : Remembers s u :=
  ⟨hkinds ▸ h.kinds, hscratch ▸ h.scratch⟩

theorem resolve (type : TypeId) (s : Matcher) :
    Remembers s { s with kinds := (s.kinds.resolve s.host.types type).2 } where
  kinds other resolved h := by
    dsimp only
    unfold KindCache.resolve
    cases hknown : s.kinds.get? type with
    | some known => exact h
    | none =>
      have hne : (other == type) = false := by
        refine beq_false_of_ne fun heq => ?_
        rw [heq, hknown] at h
        cases h
      simpa only [KindCache.get?, List.lookup_cons, hne] using h
  scratch := .refl s.scratch

theorem look {α : Type} {slot : Slot} {read : NodeMemo → Option α} {keep : α → NodeMemo → NodeMemo}
    {question : Question α} (hfills : Fills slot read keep question) (path : AccessPath)
    (s : Matcher) :
    Leads (fun _ => True) Remembers (fun _ => Remembers) (observe (askOnce path read keep question)) s
      fun _ _ => True :=
  leads_askOnce
    (fun _ _ _ => ⟨trivial, ⟨fun _ _ h => h, .visit _ _⟩, trivial⟩)
    (fun a _ hempty _ =>
      ⟨trivial, ⟨fun _ _ h => h, .learnt _ _ _ (hfills.within a _ hempty)⟩, trivial⟩)
    fun _ _ _ _ => ⟨fun _ _ h => h, .noted _ _ _⟩

/-- **No step of an evaluation forgets.** -/
theorem evolution : RunEvolution (fun _ => True) Remembers fun _ => Remembers :=
  ObserverEvolution.toRunEvolution {
    refl := refl
    trans := trans
    fails := trans
    unchanged := fun {s _} _ hobserver hkinds =>
      ⟨trivial, (refl s).of_eq (congrArg Observer.scratch hobserver) hkinds⟩
    failsUnchanged := fun h hobserver hkinds =>
      h.of_eq (congrArg Observer.scratch hobserver) hkinds
    thrown := fun {_ s} _ _ => refl s
    resolve := fun type s _ => ⟨trivial, resolve type s⟩
    allocate := fun {s} _ => ⟨trivial, (refl s).of_eq rfl rfl⟩
    ask := fun _ s _ => leads_askHost (fun _ _ _ => ⟨trivial, (refl s).of_eq rfl rfl, trivial⟩)
      fun _ _ _ => (refl s).of_eq rfl rfl
    elements := fun path _ _ => look (fills_elements _) path _
    mapping := fun path _ _ => look (fills_mapping _) path _
    components := fun path _ _ => look (fills_components _) path _
    declared := fun path _ _ => look (fills_declared _) path _
    fetch := fun path name _ _ => look (fills_field _ name) path _ }

end Remembers

/-! ## Looking again -/

/-- The kind of a type is resolved once. -/
theorem kindOf_again {value : Value} {kind : MatchKind} {s t u : Matcher}
    (h : kindOf value s = .ok kind t) (htu : Remembers t u) : kindOf value u = .ok kind u := by
  have hknown : t.kinds.get? value.type = some (s.kinds.resolve s.host.types value.type).1 := by
    rw [kindOf_eq] at h
    cases h
    dsimp only
    unfold KindCache.resolve
    cases hget : s.kinds.get? value.type with
    | some known => exact hget
    | none => exact List.lookup_cons_self
  have hlater := htu.kinds _ _ hknown
  have hkind := kind_of_kindOf h
  rw [kindOf_eq, kindAt, KindCache.kindIn]
  simp only [KindCache.resolve, hlater]
  rw [hkind]
  rfl

/-- A part is looked at once. -/
theorem observe_again {α : Type} {slot : Slot} {read : NodeMemo → Option α}
    {keep : α → NodeMemo → NodeMemo} {question : Question α}
    (hfills : Fills slot read keep question) {path : AccessPath} {a : α} {s t u : Matcher}
    (h : observe (askOnce path read keep question) s = .ok a t) (htu : Remembers t u) :
    observe (askOnce path read keep question) u = .ok a u := by
  -- The first look has left the answer in the slot, whether it found it there or not.
  have hknown : ∃ memo, t.scratch.node? path = some memo ∧ read memo = some a := by
    unfold observe at h
    cases hslot : read (s.scratch.memo path) with
    | some known =>
      rw [askOnce_of_known s.toObserver hslot] at h
      cases h
      exact ⟨_, s.scratch.node?_visit_self path, hslot⟩
    | none =>
      cases hanswer : question.answer (s.host.record question.event) with
      | ok answer =>
        rw [askOnce_of_answer s.toObserver hslot hanswer] at h
        cases h
        exact ⟨_, s.scratch.node?_learnt_self path _ _, hfills.keeps _ _⟩
      | error e =>
        rw [askOnce_of_error s.toObserver hslot hanswer] at h
        cases h
  obtain ⟨memo, hmemo, hanswer⟩ := hknown
  obtain ⟨later, hlater, hwithin⟩ := htu.scratch path memo hmemo
  have hself : u.scratch.memo path = later := by rw [Scratch.memo, hlater, Option.getD_some]
  have hslot : read (u.scratch.memo path) = some a := hself ▸ hfills.stays hwithin hanswer
  unfold observe
  rw [askOnce_of_known u.toObserver hslot, Scratch.visit_of_node? hlater]

end Matcher

end StructuralMatch

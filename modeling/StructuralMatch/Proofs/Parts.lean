import Mathlib.Data.List.Forall2
import StructuralMatch.Proofs.Computation
import StructuralMatch.Proofs.Frame

/-!
# `Proofs.Parts` — a path leads to one value

The memory of an evaluation is keyed by paths, so it is right only if a path leads to the same value
whenever it is followed. It nearly does: the list that a star pattern is matched with is made anew each
time, with another identity. No answer of the host depends on that identity.

* `Value.faceless` drops the identity of a list or dict; answers do not depend on it.
* `Value.Twin` relates values that are the same, or were made during an evaluation with the same contents.
* `Host.Denotes` says which value a path leads to, up to its face.
* `NodeMemo.TrueOf` says that what is remembered is what the host would answer, and `Faithful` that a way
  of looking at a part reads and keeps what the host says.
-/

namespace StructuralMatch

/-! ## Faces -/

namespace Value

/-- The value without the identity that it has as a list or dict. The values inside keep theirs. -/
def faceless : Value → Value
  | .list _ items => .list 0 items
  | .dict _ entries => .dict 0 entries
  | value => value

/-- **Twins**: the same value twice, or two lists or dicts with the same contents that were both made
    since the identities stood at `base`. -/
inductive Twin (base : Identity) : Value → Value → Prop
  | same (value : Value) : Twin base value value
  | list {a b : Identity} (items : List Value) : base ≤ a → base ≤ b →
      Twin base (.list a items) (.list b items)
  | dict {a b : Identity} (entries : List (Value × Value)) : base ≤ a → base ≤ b →
      Twin base (.dict a entries) (.dict b entries)

theorem Twin.faceless {base : Identity} {v w : Value} (h : Twin base v w) :
    v.faceless = w.faceless := by
  cases h <;> rfl

/-- What does not depend on the face is the same for values with the same face. -/
theorem eq_of_faceless {α : Type} (read : Value → α) (hread : ∀ v : Value, read v.faceless = read v)
    {v w : Value} (h : v.faceless = w.faceless) : read w = read v := by
  rw [← hread w, ← h, hread v]

@[simp]
theorem type_faceless (v : Value) : v.faceless.type = v.type := by
  cases v <;> rfl

@[simp]
theorem asInt?_faceless (v : Value) : v.faceless.asInt? = v.asInt? := by
  cases v <;> rfl

@[simp]
theorem asItems?_faceless (v : Value) : v.faceless.asItems? = v.asItems? := by
  cases v <;> rfl

@[simp]
theorem asEntries?_faceless (v : Value) : v.faceless.asEntries? = v.asEntries? := by
  cases v <;> rfl

@[simp]
theorem attribute?_faceless (name : Name) (v : Value) :
    v.faceless.attribute? name = v.attribute? name := by
  cases v <;> rfl

@[simp]
theorem truthy_faceless (v : Value) : v.faceless.truthy = v.truthy := by
  cases v <;> rfl

@[simp]
theorem looseEq_faceless (v w : Value) : v.faceless.looseEq w = v.looseEq w := by
  cases v <;> cases w <;> simp [faceless, looseEq, numberEq?, asNumber?]

/-- Whether a value is a singleton shows in its face. -/
theorem identical_faceless (v : Value) (host : Host) {constant : Literal}
    (h : constant.isSingleton = true) :
    v.faceless.identical (host.literal constant) = v.identical (host.literal constant) := by
  cases constant with
  | none => cases v <;> rfl
  | bool b => cases v <;> rfl
  | _ => cases h

end Value

namespace Host

variable (host : Host)

@[simp]
theorem elementsOf_faceless (v : Value) : host.elementsOf v.faceless = host.elementsOf v := by
  simp [elementsOf]

@[simp]
theorem entriesOf_faceless (v : Value) : host.entriesOf v.faceless = host.entriesOf v := by
  simp [entriesOf]

/-- The view of a mapping does not depend on its face. -/
theorem mapping_faceless (v : Value) :
    (Question.mapping v.faceless).answer host = (Question.mapping v).answer host := by
  simp only [Question.mapping, entriesOf_faceless]

@[simp]
theorem componentsOf_faceless (v : Value) : host.componentsOf v.faceless = host.componentsOf v := by
  cases v <;> rfl

@[simp]
theorem attributeOf_faceless (v : Value) (name : Name) :
    host.attributeOf v.faceless name = host.attributeOf v name := by
  simp [attributeOf]

/-- What the host says depends only on its world. -/
theorem SameWorld.congr {α : Type} {a b : Host} (h : a.SameWorld b) (say : Host → α)
    (hsay : ∀ (host : Host) log nextIdentity, say { host with log, nextIdentity } = say host) :
    say b = say a := by
  obtain ⟨hnames, htypes, hvalues, hguards⟩ := h
  obtain ⟨_, _, _, _, log, nextIdentity⟩ := b
  cases hnames
  cases htypes
  cases hvalues
  cases hguards
  exact hsay a log nextIdentity

/-! ## Parts -/

/-- The part of a value that one step leads to. A slice is a list without a face. -/
def part (value : Value) : PathStep → Option Value
  | .index position => (host.elementsOf value).toOption.bind (·[position]?)
  | .slice start stop =>
    (host.elementsOf value).toOption.map fun items => .list 0 ((items.drop start).take (stop - start))
  | .key key =>
    (host.entriesOf value).toOption.bind fun entries => (MappingView.ofEntries host.mapKey entries).get? key
  | .component position => (host.componentsOf value).toOption.bind (·[position]?)
  | .field name => (host.attributeOf value name).toOption.join

/-- The part of a subject that a path leads to, without its face. -/
def partAt (subject : Value) (path : AccessPath) : Option Value :=
  path.foldlM (fun value step => (host.part value step).map Value.faceless) subject.faceless

/-- **The path leads from the subject to the value**, up to its face. -/
def Denotes (subject : Value) (path : AccessPath) (value : Value) : Prop :=
  host.partAt subject path = some value.faceless

theorem part_faceless (v : Value) (step : PathStep) : host.part v.faceless step = host.part v step := by
  cases step <;> simp [part]

variable {host} {subject v w : Value} {path : AccessPath}

theorem Denotes.root (subject : Value) : host.Denotes subject .root subject := rfl

/-- One more step. -/
theorem Denotes.push (h : host.Denotes subject path v) {step : PathStep}
    (hstep : host.part v step = some w) : host.Denotes subject (path.push step) w := by
  unfold Denotes partAt at h ⊢
  rw [Array.foldlM_push, h]
  change (host.part v.faceless step).map Value.faceless = _
  rw [part_faceless, hstep]
  rfl

/-- **A path leads to one value**, up to its face. -/
theorem Denotes.unique (hv : host.Denotes subject path v) (hw : host.Denotes subject path w) :
    v.faceless = w.faceless :=
  Option.some.inj (hv.symm.trans hw)

/-- The face does not matter. -/
theorem Denotes.congr (h : host.Denotes subject path v) (hvw : v.faceless = w.faceless) :
    host.Denotes subject path w :=
  h.trans (congrArg some hvw)

end Host

/-! ## True memories -/

/-- **What is remembered about a part is what the host would answer.** -/
structure NodeMemo.TrueOf (host : Host) (value : Value) (memo : NodeMemo) : Prop where
  elements : ∀ items, memo.elements = some items → host.elementsOf value = .ok items
  mapping : ∀ view, memo.mapping = some view → (Question.mapping value).answer host = .ok view
  components : ∀ items, memo.components = some items → host.componentsOf value = .ok items
  declared : ∀ names, memo.declared = some names → host.types.matchArgs value.type = names
  attributes : ∀ name found, memo.attributes.lookup name = some found →
    host.attributeOf value name = .ok found

namespace NodeMemo.TrueOf

variable {host : Host} {v w : Value} {memo : NodeMemo}

/-- Nothing is remembered, so nothing is wrong. -/
theorem empty (host : Host) (value : Value) : TrueOf host value {} where
  elements _ h := by cases h
  mapping _ h := by cases h
  components _ h := by cases h
  declared _ h := by cases h
  attributes _ _ h := by cases h

/-- A memo is true of every value with the same face. -/
theorem congr (h : memo.TrueOf host v) (hvw : v.faceless = w.faceless) : memo.TrueOf host w where
  elements items hitems := by
    rw [Value.eq_of_faceless host.elementsOf host.elementsOf_faceless hvw]
    exact h.elements items hitems
  mapping view hview := by
    have hsame := Value.eq_of_faceless (fun v => (Question.mapping v).answer host) host.mapping_faceless
      hvw
    exact hsame.trans (h.mapping view hview)
  components items hitems := by
    rw [Value.eq_of_faceless host.componentsOf host.componentsOf_faceless hvw]
    exact h.components items hitems
  declared names hnames := by
    rw [Value.eq_of_faceless Value.type Value.type_faceless hvw]
    exact h.declared names hnames
  attributes name found hfound := by
    have hsame := Value.eq_of_faceless (host.attributeOf · name) (host.attributeOf_faceless · name) hvw
    exact hsame.trans (h.attributes name found hfound)

end NodeMemo.TrueOf

/-- **A way of looking at a part is faithful**: it reads and keeps the answer to its question, which does
    not depend on what was asked before. -/
structure Faithful {α : Type} (host : Host) (value : Value) (read : NodeMemo → Option α)
    (keep : α → NodeMemo → NodeMemo) (question : Question α) : Prop where
  reads : ∀ {memo : NodeMemo} {a}, memo.TrueOf host value → read memo = some a →
    question.answer host = .ok a
  keeps : ∀ {memo : NodeMemo} {a}, memo.TrueOf host value → question.answer host = .ok a →
    (keep a memo).TrueOf host value
  steady : ∀ {other : Host}, host.SameWorld other → question.answer other = question.answer host

section

variable (host : Host) (value : Value)

theorem faithful_elements :
    Faithful host value (·.elements) (fun items memo => { memo with elements := some items })
      (.elements value) where
  reads h := h.elements _
  keeps h hanswer := { h with elements := fun _ heq => Option.some.inj heq ▸ hanswer }
  steady hworld := hworld.congr (fun host => host.elementsOf value) fun _ _ _ => rfl

theorem faithful_mapping :
    Faithful host value (·.mapping) (fun view memo => { memo with mapping := some view })
      (.mapping value) where
  reads h := h.mapping _
  keeps h hanswer := { h with mapping := fun _ heq => Option.some.inj heq ▸ hanswer }
  steady hworld := hworld.congr (fun host => (Question.mapping value).answer host) fun _ _ _ => rfl

theorem faithful_components :
    Faithful host value (·.components) (fun items memo => { memo with components := some items })
      (.components value) where
  reads h := h.components _
  keeps h hanswer := { h with components := fun _ heq => Option.some.inj heq ▸ hanswer }
  steady hworld := hworld.congr (fun host => host.componentsOf value) fun _ _ _ => rfl

theorem faithful_declared :
    Faithful host value (·.declared) (fun names memo => { memo with declared := some names })
      (.matchArgs value.type) where
  reads h heq := congrArg Except.ok (h.declared _ heq)
  keeps h hanswer := { h with
    declared := fun _ heq => (Except.ok.inj hanswer).trans (Option.some.inj heq) }
  steady hworld := hworld.congr (fun host => (Question.matchArgs value.type).answer host)
    fun _ _ _ => rfl

theorem faithful_field (name : Name) :
    Faithful host value (·.attributes.lookup name)
      (fun found memo => { memo with attributes := (name, found) :: memo.attributes })
      (.fetch value name) where
  reads h := h.attributes name _
  keeps {memo a} h hanswer := { h with
    attributes := fun other found heq => by
      rw [List.lookup_cons] at heq
      split at heq
      · rename_i hname
        rw [eq_of_beq hname, ← Option.some.inj heq]
        exact hanswer
      · exact h.attributes other found heq }
  steady hworld := hworld.congr (fun host => host.attributeOf value name) fun _ _ _ => rfl

end

end StructuralMatch

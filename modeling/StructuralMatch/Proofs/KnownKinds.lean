import StructuralMatch.Proofs.Correspondence
import StructuralMatch.Proofs.Evaluation
import StructuralMatch.Proofs.Grounded

/-!
# `Proofs.KnownKinds` — which kinds are known already does not show

An engine keeps the kinds of types from one evaluation to the next. A kind that was looked up before the
type was registered would be wrong ever after, but the types that an evaluation looks up are those of the
parts of its subject. If these are registered, the kinds in the cache are right, and an evaluation does
the same as with an empty cache.

* `KindCache.Sound`: what is known is known of registered classes and is right.
* `Peers` is the relation between a matcher with some known kinds and one with others. It is kept by all
  steps (`Peers.correspondence`), since whatever is remembered about the parts of a grounded value is
  grounded as well.
* `Engine.matchValueWith_ofConfig` compares an engine with a new one.
-/

namespace StructuralMatch

/-! ## Sound caches -/

namespace KindCache

/-- **The cache is sound**: whatever it knows is known of a registered class, and is right. -/
def Sound (cache : KindCache) (types : Registry) : Prop :=
  ∀ type resolved, cache.get? type = some resolved →
    types.Registered type ∧ resolved = .ofFlags (types.declaredKind type)

variable {cache : KindCache} {types : Registry} {type : TypeId}

theorem sound_empty (types : Registry) : empty.Sound types := fun _ _ h => by cases h

/-- The kind that a sound cache gives does not depend on what is known already. -/
theorem Sound.resolve_fst (h : cache.Sound types) :
    (cache.resolve types type).1 = .ofFlags (types.declaredKind type) := by
  unfold resolve
  cases hknown : cache.get? type with
  | some resolved => exact (h type resolved hknown).2
  | none => rfl

/-- **A cache stays sound as long as the kinds of registered classes are looked up.** -/
theorem Sound.resolve (h : cache.Sound types) (htype : types.Registered type) :
    (cache.resolve types type).2.Sound types := by
  unfold KindCache.resolve
  cases hknown : cache.get? type with
  | some resolved => exact h
  | none =>
    intro other resolved hother
    simp only [get?, List.lookup_cons] at hother
    split at hother
    · rename_i heq
      rw [eq_of_beq heq]
      exact ⟨htype, (Option.some.inj hother).symm⟩
    · exact h other resolved hother

/-- **New classes do not make a sound cache wrong.** -/
theorem Sound.of_prefix {later : Registry} (h : cache.Sound types)
    (hlater : types.classes <+: later.classes) : cache.Sound later := by
  intro type resolved hknown
  obtain ⟨htype, hresolved⟩ := h type resolved hknown
  exact ⟨htype.of_prefix hlater, by rw [Registry.declaredKind_of_isPrefix hlater htype, hresolved]⟩

end KindCache

/-! ## Grounded memories -/

/-- Every value that is remembered about a part is grounded. -/
structure NodeMemo.Grounded (types : Registry) (memo : NodeMemo) : Prop where
  elements : ∀ items, memo.elements = some items → ∀ item ∈ items, item.Grounded types
  mapping : ∀ view, memo.mapping = some view → ∀ slot ∈ view.slots, slot.2.2.Grounded types
  components : ∀ items, memo.components = some items → ∀ item ∈ items, item.Grounded types
  attributes : ∀ name found, memo.attributes.lookup name = some (some found) → found.Grounded types

/-- Nothing is remembered. -/
theorem NodeMemo.Grounded.empty (types : Registry) : NodeMemo.Grounded types {} where
  elements _ h := by cases h
  mapping _ h := by cases h
  components _ h := by cases h
  attributes _ _ h := by cases h

namespace Matcher

/-- **Either strategy gives the same outcome on both sides.** -/
theorem RunCorrespondence.evaluation {Rel Fail : Matcher → Matcher → Prop}
    {V : AccessPath → Value → Value → Prop} {B : Value → Value → Prop}
    (c : RunCorrespondence Rel Fail V B) (compiled : CompiledStatement) (strategy : Strategy)
    {subject : Value} (h : V .root subject subject) :
    Agree Rel Fail (compiled.evaluation strategy subject) (compiled.evaluation strategy subject)
      (Outcome.Related B) := by
  cases strategy with
  | inOrder => exact c.runInOrder compiled.statement h
  | lanes => exact c.runPlan compiled.statement compiled.plan h

variable {α : Type} {types : Registry} {s t : Matcher}

/-- The classes are the given ones, and every value in memory is grounded. -/
structure Within (types : Registry) (s : Matcher) : Prop where
  classes : s.host.types = types
  memory : ∀ path, (s.scratch.memo path).Grounded types

/-- The judgement for looks at the parts of a grounded value: what is seen meets `Q`. -/
def Sees (types : Registry) (look : MatchM α) (Q : α → Prop) : Prop :=
  ∀ s, Leads (Within types) (fun _ _ => True) (fun _ _ => Within types) look s fun a _ => Q a

theorem Within.memoryInvariant (types : Registry) :
    MemoryInvariant (NodeMemo.Grounded types) (Within types) where
  memory hs := hs.memory
  remember hs hscratch := { hs with memory := hscratch }
  record _ hs := { hs with }

/-- **What is seen is grounded**, be it remembered or answered. -/
theorem sees_askOnce {path : AccessPath} {read : NodeMemo → Option α}
    {keep : α → NodeMemo → NodeMemo} {question : Question α} {Q : α → Prop}
    (hreads : ∀ memo a, memo.Grounded types → read memo = some a → Q a)
    (hanswers : ∀ host a, question.answer host = .ok a → Q a)
    (hkeeps : ∀ memo a, memo.Grounded types → Q a → (keep a memo).Grounded types) :
    Sees types (observe (askOnce path read keep question)) Q :=
  fun _ => (Within.memoryInvariant types).askOnce hreads (hanswers _) hkeeps fun _ _ _ ht => ht

section Looks

variable {path : AccessPath} {value : Value}

theorem sees_elements (h : value.Grounded types) :
    Sees types (observe (.elements path value)) fun items => ∀ item ∈ items, item.Grounded types :=
  sees_askOnce (fun _ _ hmemo => hmemo.elements _)
    (fun _ _ hanswer item hitem => h.part (Host.hasPart_of_elementsOf hanswer item hitem))
    fun _ _ hmemo hitems => { hmemo with elements := fun _ heq => Option.some.inj heq ▸ hitems }

theorem sees_mapping (h : value.Grounded types) :
    Sees types (observe (.mapping path value)) fun view =>
      ∀ slot ∈ view.slots, slot.2.2.Grounded types := by
  refine sees_askOnce (fun _ _ hmemo => hmemo.mapping _) (fun host view hanswer slot hslot => ?_)
    fun _ _ hmemo hview => { hmemo with mapping := fun _ heq => Option.some.inj heq ▸ hview }
  simp only [Question.mapping] at hanswer
  cases hentries : host.entriesOf value with
  | error e =>
    rw [hentries] at hanswer
    cases hanswer
  | ok entries =>
    rw [hentries] at hanswer
    cases hanswer
    obtain ⟨entry, hentry, rfl⟩ := List.mem_map.mp hslot
    exact h.part (Host.hasPart_of_entriesOf hentries entry hentry)

theorem sees_components (h : value.Grounded types) :
    Sees types (observe (.components path value)) fun items => ∀ item ∈ items, item.Grounded types :=
  sees_askOnce (fun _ _ hmemo => hmemo.components _)
    (fun _ _ hanswer item hitem => h.part (Host.hasPart_of_componentsOf hanswer item hitem))
    fun _ _ hmemo hitems => { hmemo with components := fun _ heq => Option.some.inj heq ▸ hitems }

theorem sees_declared : Sees types (observe (.declared path value)) fun _ => True :=
  sees_askOnce (fun _ _ _ _ => trivial) (fun _ _ _ => trivial)
    fun _ _ hmemo _ => { hmemo with }

theorem sees_attribute (h : value.Grounded types) (name : Name) :
    Sees types (observe (.attribute? path value name)) fun found =>
      ∀ x, found = some x → x.Grounded types := by
  refine sees_askOnce (fun _ _ hmemo hread x heq => hmemo.attributes name x (heq ▸ hread))
    (fun _ _ hanswer x heq => ?_) fun _ found hmemo hfound => { hmemo with attributes := ?_ }
  · subst heq
    exact h.part (Host.hasPart_of_attributeOf hanswer)
  · intro other x heq
    rw [List.lookup_cons] at heq
    split at heq
    · exact hfound x (Option.some.inj heq)
    · exact hmemo.attributes other x heq

end Looks

/-! ## Two matchers that know different kinds -/

/-- The matcher, had it known these kinds. -/
def knowing (s : Matcher) (kinds : KindCache) : Matcher := { s with kinds }

/-- **The two matchers differ at most in the kinds that they know**, and both know only what is right. -/
inductive Peers (types : Registry) : Matcher → Matcher → Prop
  | mk {s : Matcher} {kinds : KindCache} : Within types s → s.kinds.Sound types → kinds.Sound types →
      Peers types s (s.knowing kinds)

/-- Both sides look at one value, and it is grounded. -/
def Grounds (types : Registry) (v w : Value) : Prop := v = w ∧ v.Grounded types

namespace Peers

/-- Peers whose bindings or depth are changed alike stay peers. -/
theorem changed (hst : Peers types s t) (change : Matcher → Matcher)
    (hobserver : ∀ s, (change s).toObserver = s.toObserver)
    (hkinds : ∀ s kinds, change (s.knowing kinds) = (change s).knowing kinds) :
    Peers types (change s) (change t) := by
  obtain ⟨hs, hleft, hright⟩ := hst
  -- With the kinds that it knows anyway the matcher is the same, so that the change keeps them.
  have hkept : (change (s.knowing s.kinds)).kinds = s.kinds := by
    rw [hkinds]
    rfl
  rw [hkinds]
  exact ⟨⟨hobserver s ▸ hs.classes, hobserver s ▸ hs.memory⟩, hkept ▸ hleft, hright⟩

/-- Peers see the same. -/
theorem observe {m : ObserverM α} {Q : α → Prop} (h : Sees types (Matcher.observe m) Q) :
    Agree (Peers types) (Peers types) (Matcher.observe m) (Matcher.observe m) fun a b => a = b ∧ Q a := by
  rintro s _ ⟨hs, hleft, hright⟩
  have hsees := h s hs
  simp only [Matcher.observe, knowing] at hsees ⊢
  cases hm : m s.toObserver with
  | ok a observer =>
    rw [hm] at hsees
    obtain ⟨hafter, -, hQ⟩ := hsees
    exact ⟨⟨hafter, hleft, hright⟩, rfl, hQ⟩
  | error e observer =>
    rw [hm] at hsees
    exact ⟨rfl, hsees, hleft, hright⟩

/-- Peers are answered alike. -/
theorem ask (question : Question α) :
    Agree (Peers types) (Peers types) (askHost question) (askHost question) Eq := by
  rintro s _ ⟨hs, hleft, hright⟩
  have hafter : Within types { s with host := s.host.record question.event } :=
    ⟨hs.classes, hs.memory⟩
  simp only [askHost, Question.ask_eq, knowing]
  cases question.answer (s.host.record question.event) with
  | ok a => exact ⟨⟨hafter, hleft, hright⟩, rfl⟩
  | error e => exact ⟨rfl, hafter, hleft, hright⟩

/-- **Peers look up the same kind of a grounded value.** -/
theorem kindOf (hbuiltins : types.HasBuiltins) {v w : Value} (h : Grounds types v w) :
    Agree (Peers types) (Peers types) (Matcher.kindOf v) (Matcher.kindOf w) Eq := by
  obtain ⟨rfl, hv⟩ := h
  have htype := hv.registered hbuiltins
  rintro s _ ⟨⟨rfl, hmemory⟩, hleft, hright⟩
  rw [kindOf_eq, kindOf_eq]
  refine ⟨⟨⟨rfl, hmemory⟩, hleft.resolve htype, hright.resolve htype⟩, ?_⟩
  -- Either cache gives the kind that the registered class declares.
  show (KindCache.resolve _ _ _).1.kind = (KindCache.resolve _ _ _).1.kind
  rw [hleft.resolve_fst]
  exact congrArg ResolvedKind.kind hright.resolve_fst.symm

theorem newList {items : List Value} (h : ∀ item ∈ items, item.Grounded types) :
    Agree (Peers types) (Peers types) (Matcher.newList items) (Matcher.newList items)
      (Grounds types) := by
  rintro s _ ⟨hs, hleft, hright⟩
  exact ⟨⟨⟨hs.classes, hs.memory⟩, hleft, hright⟩, rfl, Value.grounded_list h⟩

theorem newDict (entries : List (Value × Value)) :
    Agree (Peers types) (Peers types) (Matcher.newDict entries) (Matcher.newDict entries) Eq := by
  rintro s _ ⟨hs, hleft, hright⟩
  exact ⟨⟨⟨hs.classes, hs.memory⟩, hleft, hright⟩, rfl⟩

/-- Targets among grounded elements are grounded. -/
theorem shows {elements : List Value} (h : ∀ item ∈ elements, item.Grounded types) (path : AccessPath)
    (target : Target) (htarget : target.Among elements) :
    Shows (Peers types) (Peers types) (fun _ => Grounds types) path target := by
  cases target with
  | part piece => exact ⟨rfl, h _ htarget.value_mem⟩
  | slice start items => exact newList fun item hitem => h item (htarget.items_subset hitem)

/-- A value that a grounded view has for a key is grounded. -/
theorem grounded_of_get? {view : MappingView Value} (h : ∀ slot ∈ view.slots, slot.2.2.Grounded types)
    {key : MapKey} {value : Value} (hvalue : view.get? key = some value) : value.Grounded types := by
  obtain ⟨slot, hslot, rfl⟩ := MappingView.exists_slot_of_get? hvalue
  exact h slot hslot

theorem matchLiteral (constant : Literal) {v w : Value} (h : Grounds types v w) :
    Agree (Peers types) (Peers types) (Matcher.matchLiteral constant v)
      (Matcher.matchLiteral constant w) Eq := by
  obtain ⟨rfl, -⟩ := h
  unfold Matcher.matchLiteral
  refine Agree.get_bind fun s t hst => ?_
  have hhost : t.host = s.host := by
    cases hst
    rfl
  rw [hhost]
  split
  · exact ⟨hst, rfl⟩
  · exact ask _ s t hst

/-- **Peers stay peers.** -/
theorem correspondence (hbuiltins : types.HasBuiltins) :
    RunCorrespondence (Peers types) (Peers types) (fun _ => Grounds types) Eq where
  thrown hst := hst
  limit := by
    rintro s _ ⟨-, -, -⟩
    rfl
  deeper hst := hst.changed (fun s => { s with depth := s.depth + 1 }) (fun _ => rfl) fun _ _ => rfl
  shallower hst := hst.changed (fun s => { s with depth := s.depth - 1 }) (fun _ => rfl) fun _ _ => rfl
  failsShallower hst :=
    hst.changed (fun s => { s with depth := s.depth - 1 }) (fun _ => rfl) fun _ _ => rfl
  mark := by
    rintro s _ ⟨-, -, -⟩
    rfl
  truncate mark hst :=
    hst.changed (fun s => { s with bindings := s.bindings.truncate mark }) (fun _ => rfl)
      fun _ _ => rfl
  bind {_ _ v _} name hvw hst := by
    subst hvw
    exact hst.changed (fun s => { s with bindings := s.bindings.bind name v }) (fun _ => rfl)
      fun _ _ => rfl
  mapKey := by
    rintro s _ ⟨-, -, -⟩
    rfl
  type h := by rw [h.1]
  bound h := h.1
  kindOf := kindOf hbuiltins
  elements := by
    rintro path v _ ⟨rfl, hv⟩
    exact (observe (sees_elements hv)).weaken fun items _ h => ⟨h.1, shows h.2 path⟩
  mapping := by
    rintro path v _ ⟨rfl, hv⟩
    exact (observe (sees_mapping hv)).weaken fun view _ h =>
      ⟨h.1, fun key x hx => ⟨rfl, grounded_of_get? h.2 hx⟩⟩
  components := by
    rintro path v _ ⟨rfl, hv⟩
    refine (observe (sees_components hv)).weaken fun items _ h => ⟨h.1, fun part hpart => ⟨rfl, ?_⟩⟩
    obtain ⟨position, -, hvalue⟩ := hpart
    exact h.2 _ (List.mem_of_getElem? hvalue)
  declared := by
    rintro path v _ ⟨rfl, -⟩
    exact (observe sees_declared).weaken fun _ _ h => h.1
  fetch := by
    rintro path v _ name ⟨rfl, hv⟩
    exact (observe (sees_attribute hv name)).weaken fun _ _ h => ⟨h.1, fun x hx => ⟨rfl, h.2 x hx⟩⟩
  isInstance type h := by
    obtain ⟨rfl, -⟩ := h
    exact ask _
  equals expected h := by
    obtain ⟨rfl, -⟩ := h
    exact ask _
  literal constant h := matchLiteral constant h
  value expr := ask _
  newDict := newDict
  reset hst := hst.changed Matcher.cleared (fun _ => rfl) fun _ _ => rfl
  bindings := by
    rintro s _ ⟨-, -, -⟩
    exact List.forall₂_same.mpr fun _ _ => ⟨rfl, rfl⟩
  guard guard hst := by
    obtain ⟨hs, hleft, hright⟩ := hst
    exact ask _ _ _ ⟨hs, hleft, hright⟩

end Peers

end Matcher

/-! ## Engines -/

namespace Engine

variable {engine : Engine} {host : Host} {subject : Value}

/-- **An engine does what a new one does.** If what it knows of the classes is right and the subject is
    grounded, it gives the same result and leaves the same host. What it knows then is right again. -/
theorem matchValueWith_ofConfig (hsound : engine.kinds.Sound host.types)
    (hbuiltins : host.types.HasBuiltins) (hsubject : subject.Grounded host.types)
    (strategy : Strategy) (compiled : CompiledStatement) :
    let kept := engine.matchValueWith strategy host compiled subject
    let new := (ofConfig engine.config).matchValueWith strategy host compiled subject
    kept.result = new.result ∧ kept.host = new.host ∧ kept.engine.kinds.Sound host.types := by
  have hfresh : Matcher.Within host.types (engine.matcher host) := ⟨rfl, fun _ => .empty host.types⟩
  have hpeers : Matcher.Peers host.types (engine.matcher host) ((ofConfig engine.config).matcher host) :=
    ⟨hfresh, hsound, KindCache.sound_empty host.types⟩
  have halike := (Matcher.Peers.correspondence hbuiltins).evaluation compiled strategy
    ⟨rfl, hsubject⟩ _ _ hpeers
  -- Peers have the same host, and what the left one knows is right, also after an error.
  cases hkept : compiled.evaluation strategy subject (engine.matcher host) with
  | ok outcome s =>
    rw [hkept] at halike
    obtain ⟨outcome', t, hnew, hpeers, houtcome⟩ := halike.of_ok
    obtain rfl := houtcome.eq
    rw [matchValueWith_of_ok hkept, matchValueWith_of_ok hnew]
    cases hpeers with
    | mk _ hleft _ => exact ⟨rfl, rfl, hleft⟩
  | error e s =>
    rw [hkept] at halike
    obtain ⟨t, hnew, hpeers⟩ := halike.of_error
    rw [matchValueWith_of_error hkept, matchValueWith_of_error hnew]
    cases hpeers with
    | mk _ hleft _ => exact ⟨rfl, rfl, hleft⟩

end Engine

end StructuralMatch

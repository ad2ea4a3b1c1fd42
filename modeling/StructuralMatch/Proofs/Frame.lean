import StructuralMatch.Proofs.Evolution

/-!
# `Proofs.Frame` — what an evaluation leaves alone

An evaluation asks the host questions and makes new values. It leaves the names, the classes, the values
of expressions and the guards as they are; the log only grows; and although kinds become known, no type
changes its kind. Patterns come back to the depth that they were entered at.

`ObserverEvolution` is the form of `RunEvolution` for relations that do not look at the bindings and the
depth, as most do, and `PlacePassage` serves relations that look at nothing else. The results are
`Frame.evolution` and `Level.evolution`.
-/

namespace StructuralMatch

/-! ## The world of a host -/

/-- The two hosts have the same names, classes, values and guards. Answers depend on these only. -/
structure Host.SameWorld (a b : Host) : Prop where
  names : b.names = a.names
  types : b.types = a.types
  values : b.values = a.values
  guards : b.guards = a.guards

namespace Host.SameWorld

theorem refl (host : Host) : host.SameWorld host := ⟨rfl, rfl, rfl, rfl⟩

theorem trans {a b c : Host} (hab : a.SameWorld b) (hbc : b.SameWorld c) : a.SameWorld c :=
  ⟨hbc.names.trans hab.names, hbc.types.trans hab.types, hbc.values.trans hab.values,
    hbc.guards.trans hab.guards⟩

theorem record (host : Host) (event : Event) : host.SameWorld (host.record event) :=
  ⟨rfl, rfl, rfl, rfl⟩

end Host.SameWorld

/-! ## Kinds -/

namespace KindCache

/-- The kind that a type has, be it known already or not. -/
def kindIn (cache : KindCache) (types : Registry) (type : TypeId) : MatchKind :=
  (cache.resolve types type).1.kind

/-- A type whose kind has become known keeps it, and no other type is touched. -/
theorem kindIn_resolve (cache : KindCache) (types : Registry) (type other : TypeId) :
    (cache.resolve types type).2.kindIn types other = cache.kindIn types other := by
  unfold kindIn resolve get?
  cases hknown : cache.known.lookup type with
  | some resolved => rfl
  | none =>
    by_cases h : other = type
    · subst h
      simp only [hknown, List.lookup_cons, beq_self_eq_true]
    · have hne : (other == type) = false := by simpa using h
      simp only [List.lookup_cons, hne]
      cases cache.known.lookup other <;> rfl

end KindCache

namespace Matcher

/-- The kind that a type has in the eyes of a matcher. -/
def kindAt (s : Matcher) (type : TypeId) : MatchKind := s.kinds.kindIn s.host.types type

theorem kindOf_eq (value : Value) (s : Matcher) :
    kindOf value s = .ok (s.kindAt value.type)
      { s with kinds := (s.kinds.resolve s.host.types value.type).2 } := rfl

/-- The kind that is looked up is the kind of the value's type. -/
theorem kind_of_kindOf {value : Value} {kind : MatchKind} {s t : Matcher}
    (h : kindOf value s = .ok kind t) : kind = s.kindAt value.type := by
  rw [kindOf_eq] at h
  cases h
  rfl

/-! ## Relations on what is observed -/

/-- Relations that look only at the host, its memory and the known kinds. -/
structure ObserverPassage (I : Matcher → Prop) (R : Matcher → Matcher → Prop)
    (E : MatchError → Matcher → Matcher → Prop) : Prop extends Passage R E where
  unchanged : ∀ {s t : Matcher}, I s → t.toObserver = s.toObserver → t.kinds = s.kinds → I t ∧ R s t
  failsUnchanged : ∀ {e} {s t u : Matcher}, E e s t → u.toObserver = t.toObserver →
    u.kinds = t.kinds → E e s u

/-- **Steps for facts that look only at the host, its memory and the known kinds.** -/
structure ObserverEvolution (I : Matcher → Prop) (R : Matcher → Matcher → Prop)
    (E : MatchError → Matcher → Matcher → Prop) : Prop extends ObserverPassage I R E where
  thrown : ∀ {e s}, I s → e.isOutOfRange = false → E e s s
  resolve : ∀ type {s}, I s →
    I { s with kinds := (s.kinds.resolve s.host.types type).2 } ∧
      R s { s with kinds := (s.kinds.resolve s.host.types type).2 }
  allocate : ∀ {s}, I s →
    I { s with host := s.host.freshIdentity.2 } ∧ R s { s with host := s.host.freshIdentity.2 }
  ask : ∀ {α : Type} (question : Question α) s, question.event.slot? = none →
    Leads I R E (askHost question) s fun _ _ => True
  elements : ∀ {value kind s t} path, kindOf value s = .ok kind t → kind.isSequence = true →
    Leads I R E (observe (.elements path value)) t fun _ _ => True
  mapping : ∀ {value kind s t} path, kindOf value s = .ok kind t → kind.isMapping = true →
    Leads I R E (observe (.mapping path value)) t fun _ _ => True
  components : ∀ {value kind s} path, Admitted I R value kind s → kind.classMode = .positional →
    Leads I R E (observe (.components path value)) s fun _ _ => True
  declared : ∀ {value kind s} path, Admitted I R value kind s →
    kind.classMode = .positional ∨ kind.classMode = .default →
    Leads I R E (observe (.declared path value)) s fun _ _ => True
  fetch : ∀ {value kind s} path name, Admitted I R value kind s →
    kind.classMode = .selfValue ∨ kind.classMode = .default →
    Leads I R E (observe (.attribute? path value name)) s fun _ _ => True

section Observers

variable {I : Matcher → Prop} {R : Matcher → Matcher → Prop}
  {E : MatchError → Matcher → Matcher → Prop}

namespace ObserverPassage

/-- Another state with the same observations. -/
theorem modified (p : ObserverPassage I R E) {change : Matcher → Matcher} {s : Matcher}
    (hobserver : (change s).toObserver = s.toObserver) (hkinds : (change s).kinds = s.kinds) :
    Leads I R E (modify change) s fun _ _ => True :=
  fun hs => ⟨(p.unchanged hs hobserver hkinds).1, (p.unchanged hs hobserver hkinds).2, trivial⟩

/-- Dropping the bindings of a failed trial is not observed. -/
theorem attempt (p : ObserverPassage I R E) {trial : MatchM Bool} {s : Matcher}
    (h : Leads I R E trial s fun _ _ => True) :
    Leads I R E (Matcher.attempt trial) s fun _ _ => True := by
  unfold Matcher.attempt
  refine Leads.get_bind ?_
  refine p.toPassage.bind h fun matched t _ _ _ => ?_
  split
  · exact p.toPassage.answer trivial
  · exact p.toPassage.bind (p.modified rfl rfl) fun _ u _ _ _ => p.toPassage.answer trivial

/-- The depth of a pattern is not observed. -/
theorem descend (p : ObserverPassage I R E) {inner : MatchM Bool} {s : Matcher}
    (hlimit : s.limitReached? = none)
    (h : Leads I R E inner { s with depth := s.depth + 1 } fun _ _ => True) :
    Leads I R E (Matcher.descend inner) s fun _ _ => True := by
  intro hs
  -- On the way in and on the way out only the depth changes.
  obtain ⟨hdeeper, hdown⟩ := p.unchanged (t := { s with depth := s.depth + 1 }) hs rfl rfl
  unfold Matcher.descend
  simp only [hlimit]
  cases hrun : inner { s with depth := s.depth + 1 } with
  | ok matched t =>
    obtain ⟨ht, hst, _⟩ := h.of_ok hdeeper hrun
    obtain ⟨hback, hup⟩ := p.unchanged (t := { t with depth := t.depth - 1 }) ht rfl rfl
    exact ⟨hback, p.trans hdown (p.trans hst hup), trivial⟩
  | error e t =>
    exact p.failsUnchanged (p.fails hdown (h.of_error hdeeper hrun)) rfl rfl

end ObserverPassage

theorem ObserverEvolution.toRunEvolution (ev : ObserverEvolution I R E) : RunEvolution I R E where
  toPassage := ev.toPassage
  thrown := ev.thrown
  kindOf value _ hs := ⟨(ev.resolve value.type hs).1, (ev.resolve value.type hs).2, trivial⟩
  elements := ev.elements
  mapping := ev.mapping
  components := ev.components
  declared := ev.declared
  fetch := ev.fetch
  isInstance _ _ s := ev.ask _ s rfl
  equals _ _ s := ev.ask _ s rfl
  value _ s := ev.ask _ s rfl
  newList _ _ hs := ⟨(ev.allocate hs).1, (ev.allocate hs).2, trivial⟩
  newDict _ _ hs := ⟨(ev.allocate hs).1, (ev.allocate hs).2, trivial⟩
  bind _ _ _ := ev.modified rfl rfl
  attempt := ev.attempt
  descend := ev.descend
  reset _ := ev.modified rfl rfl
  guard _ s := ev.ask _ s rfl

end Observers

/-! ## Relations on the bindings and the level -/

/-- Relations that allow every step, failed or not, that changes neither the bindings nor the level. -/
structure PlacePassage (R : Matcher → Matcher → Prop)
    (E : MatchError → Matcher → Matcher → Prop) : Prop extends Passage R E where
  stays : ∀ {s t : Matcher}, t.bindings = s.bindings → t.depth = s.depth →
    t.maxDepth = s.maxDepth → R s t
  failsThere : ∀ {e} {s t : Matcher}, t.bindings = s.bindings → t.depth = s.depth →
    t.maxDepth = s.maxDepth → E e s t

namespace PlacePassage

variable {R : Matcher → Matcher → Prop} {E : MatchError → Matcher → Matcher → Prop}

theorem ask {α : Type} (p : PlacePassage R E) (question : Question α) (s : Matcher) :
    Leads (fun _ => True) R E (askHost question) s fun _ _ => True :=
  leads_askHost (fun _ _ _ => ⟨trivial, p.stays rfl rfl rfl, trivial⟩)
    fun _ _ _ => p.failsThere rfl rfl rfl

theorem look {α : Type} (p : PlacePassage R E) (path : AccessPath) (slot : NodeMemo → Option α)
    (keep : α → NodeMemo → NodeMemo) (question : Question α) (s : Matcher) :
    Leads (fun _ => True) R E (observe (askOnce path slot keep question)) s fun _ _ => True :=
  leads_askOnce (fun _ _ _ => ⟨trivial, p.stays rfl rfl rfl, trivial⟩)
    (fun _ _ _ _ => ⟨trivial, p.stays rfl rfl rfl, trivial⟩) fun _ _ _ _ => p.failsThere rfl rfl rfl

/-- **No step that finds the parts of a value touches the bindings or the level.** -/
theorem partEvolution (p : PlacePassage R E) : PartEvolution (fun _ => True) R E where
  toPassage := p.toPassage
  thrown _ _ := p.failsThere rfl rfl rfl
  kindOf _ _ _ := ⟨trivial, p.stays rfl rfl rfl, trivial⟩
  elements path _ _ := p.look path _ _ _ _
  mapping path _ _ := p.look path _ _ _ _
  components path _ _ := p.look path _ _ _ _
  declared path _ _ := p.look path _ _ _ _
  fetch path _ _ _ := p.look path _ _ _ _
  isInstance _ _ s := p.ask _ s
  equals _ _ s := p.ask _ s
  value _ s := p.ask _ s
  newList _ _ _ := ⟨trivial, p.stays rfl rfl rfl, trivial⟩
  newDict _ _ _ := ⟨trivial, p.stays rfl rfl rfl, trivial⟩

end PlacePassage

/-! ## The frame of an evaluation -/

/-- **The frame.** What does not change while a matcher works, and what only grows. -/
structure Frame (s t : Matcher) : Prop where
  world : s.host.SameWorld t.host
  log : s.host.log.toList <+: t.host.log.toList
  identity : s.host.nextIdentity ≤ t.host.nextIdentity
  kinds : ∀ type, t.kindAt type = s.kindAt type

namespace Frame

theorem refl (s : Matcher) : Frame s s :=
  ⟨.refl s.host, List.prefix_rfl, Nat.le_refl _, fun _ => rfl⟩

theorem trans {s t u : Matcher} (hst : Frame s t) (htu : Frame t u) : Frame s u where
  world := hst.world.trans htu.world
  log := hst.log.trans htu.log
  identity := Nat.le_trans hst.identity htu.identity
  kinds type := (htu.kinds type).trans (hst.kinds type)

/-- The frame of a state depends only on the host and the known kinds. -/
theorem of_eq {s t u : Matcher} (h : Frame s t) (hhost : u.host = t.host)
    (hkinds : u.kinds = t.kinds) : Frame s u where
  world := hhost ▸ h.world
  log := hhost ▸ h.log
  identity := hhost ▸ h.identity
  kinds type := by
    have : u.kindAt type = t.kindAt type := by simp only [kindAt, hhost, hkinds]
    rw [this, h.kinds]

/-- Writing a question down stays in the frame. -/
theorem record (s : Matcher) (event : Event) :
    Frame s { s with host := s.host.record event } where
  world := .record s.host event
  log := by simp [Host.record]
  identity := Nat.le_refl _
  kinds _ := rfl

/-- What is remembered does not matter. -/
theorem remember (s : Matcher) (scratch : Scratch) : Frame s { s with scratch } :=
  (refl s).of_eq rfl rfl

/-- Asking a question and remembering its answer stays in the frame. -/
theorem asked (s : Matcher) (event : Event) (scratch : Scratch) :
    Frame s { s with host := s.host.record event, scratch } :=
  (record s event).of_eq rfl rfl

theorem resolve (type : TypeId) (s : Matcher) :
    Frame s { s with kinds := (s.kinds.resolve s.host.types type).2 } :=
  ⟨.refl s.host, List.prefix_rfl, Nat.le_refl _, s.kinds.kindIn_resolve s.host.types type⟩

theorem allocate (s : Matcher) : Frame s { s with host := s.host.freshIdentity.2 } :=
  ⟨⟨rfl, rfl, rfl, rfl⟩, List.prefix_rfl, Nat.le_succ _, fun _ => rfl⟩

theorem ask {α : Type} (question : Question α) (s : Matcher) :
    Leads (fun _ => True) Frame (fun _ => Frame) (askHost question) s fun _ _ => True :=
  leads_askHost (fun _ _ _ => ⟨trivial, record s _, trivial⟩) fun _ _ _ => record s _

theorem look {α : Type} (path : AccessPath) (slot : NodeMemo → Option α)
    (keep : α → NodeMemo → NodeMemo) (question : Question α) (s : Matcher) :
    Leads (fun _ => True) Frame (fun _ => Frame) (observe (askOnce path slot keep question)) s
      fun _ _ => True :=
  leads_askOnce (fun _ _ _ => ⟨trivial, remember s _, trivial⟩)
    (fun _ _ _ _ => ⟨trivial, asked s question.event _, trivial⟩)
    fun _ _ _ _ => asked s question.event _

/-- **Every step of an evaluation stays in the frame**, and so does one that fails. -/
theorem evolution : RunEvolution (fun _ => True) Frame fun _ => Frame :=
  ObserverEvolution.toRunEvolution {
    refl := refl
    trans := trans
    fails := trans
    unchanged := fun {s _} _ hobserver hkinds =>
      ⟨trivial, (refl s).of_eq (congrArg Observer.host hobserver) hkinds⟩
    failsUnchanged := fun h hobserver hkinds => h.of_eq (congrArg Observer.host hobserver) hkinds
    thrown := fun {_ s} _ _ => refl s
    resolve := fun type s _ => ⟨trivial, resolve type s⟩
    allocate := fun {s} _ => ⟨trivial, allocate s⟩
    ask := fun question s _ => ask question s
    elements := fun path _ _ => look path _ _ _ _
    mapping := fun path _ _ => look path _ _ _ _
    components := fun path _ _ => look path _ _ _ _
    declared := fun path _ _ => look path _ _ _ _
    fetch := fun path _ _ _ => look path _ _ _ _ }

end Frame

/-! ## Levels -/

/-- The depth and its limit are the same. -/
structure Level (s t : Matcher) : Prop where
  depth : t.depth = s.depth
  maxDepth : t.maxDepth = s.maxDepth

namespace Level

theorem refl (s : Matcher) : Level s s := ⟨rfl, rfl⟩

theorem trans {s t u : Matcher} (hst : Level s t) (htu : Level t u) : Level s u :=
  ⟨htu.depth.trans hst.depth, htu.maxDepth.trans hst.maxDepth⟩

/-- Whether the limit is reached depends on the level only. -/
theorem limitReached? {s t : Matcher} (h : Level s t) : t.limitReached? = s.limitReached? := by
  simp only [Matcher.limitReached?, h.depth, h.maxDepth]

theorem place : PlacePassage Level fun _ => Level where
  refl := refl
  trans := trans
  fails := trans
  stays _ hdepth hmaxDepth := ⟨hdepth, hmaxDepth⟩
  failsThere _ hdepth hmaxDepth := ⟨hdepth, hmaxDepth⟩

theorem passage : Passage Level fun _ => Level := place.toPassage

theorem look {α : Type} (path : AccessPath) (slot : NodeMemo → Option α)
    (keep : α → NodeMemo → NodeMemo) (question : Question α) (s : Matcher) :
    Leads (fun _ => True) Level (fun _ => Level) (observe (askOnce path slot keep question)) s
      fun _ _ => True :=
  place.look path slot keep question s

theorem ask {α : Type} (question : Question α) (s : Matcher) :
    Leads (fun _ => True) Level (fun _ => Level) (askHost question) s fun _ _ => True :=
  place.ask question s

theorem attempt {trial : MatchM Bool} {s : Matcher}
    (h : Leads (fun _ => True) Level (fun _ => Level) trial s fun _ _ => True) :
    Leads (fun _ => True) Level (fun _ => Level) (Matcher.attempt trial) s fun _ _ => True := by
  unfold Matcher.attempt
  refine Leads.get_bind ?_
  refine passage.bind h fun matched t _ _ _ => ?_
  split
  · exact passage.answer trivial
  · exact passage.bind (P := fun _ _ => True) (fun _ => ⟨trivial, ⟨rfl, rfl⟩, trivial⟩)
      fun _ u _ _ _ => passage.answer trivial

/-- A pattern comes back to the level that it was entered at, also with an error. -/
theorem descend {inner : MatchM Bool} {s : Matcher} (hlimit : s.limitReached? = none)
    (h : Leads (fun _ => True) Level (fun _ => Level) inner { s with depth := s.depth + 1 }
      fun _ _ => True) :
    Leads (fun _ => True) Level (fun _ => Level) (Matcher.descend inner) s fun _ _ => True := by
  have hback (t : Matcher) (ht : Level { s with depth := s.depth + 1 } t) :
      Level s { t with depth := t.depth - 1 } :=
    ⟨by rw [ht.depth]; rfl, ht.maxDepth⟩
  intro hs
  unfold Matcher.descend
  simp only [hlimit]
  cases hrun : inner { s with depth := s.depth + 1 } with
  | ok matched t => exact ⟨trivial, hback t (h.rel_of_ok hrun), trivial⟩
  | error e t => exact hback t (h.of_error trivial hrun)

/-- **Every step between patterns comes back to its level.** -/
theorem evolution : RunEvolution (fun _ => True) Level fun _ => Level where
  toPartEvolution := place.partEvolution
  bind _ _ _ _ := ⟨trivial, ⟨rfl, rfl⟩, trivial⟩
  attempt := attempt
  descend := descend
  reset _ _ := ⟨trivial, ⟨rfl, rfl⟩, trivial⟩
  guard _ s := ask _ s

end Level

end Matcher

end StructuralMatch

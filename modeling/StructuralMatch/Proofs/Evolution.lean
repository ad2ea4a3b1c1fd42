import StructuralMatch.Proofs.Computation
import StructuralMatch.Proofs.Targets

/-!
# `Proofs.Evolution` — what every evaluation keeps

Most facts about an evaluation say how its states may change: the log only grows, no question is put
twice, the classes stay as they are. Each is a relation `R` between the state before and the state after
a computation, with a second relation `E` for computations that end in an error. This module proves once,
by induction on patterns, clauses and plans, that an evaluation stays inside `R` and `E` if its single
steps do.

* `Leads` is the judgement: from a given state a computation ends inside `R` with an answer that meets a
  postcondition, or inside `E` with an error.
* `Evolution` lists what is asked of the steps of a matcher, and `PartEvolution` what is asked of those
  that leave the bindings and the depth alone. The host is asked for the parts of a value in a context,
  and the steps may rely on it: elements are asked for only of a value whose kind is a sequence,
  attributes only after the value was found to be an instance of a class (`Admitted`).
* `Evolution.matchPattern`, `RunEvolution.runInOrder` and `RunEvolution.runPlan` are the three results.

On the way the lengths of all target lists are computed, so no pattern ever lacks a target: the error
`outOfRange` is not among those that `E` must allow.
-/

namespace StructuralMatch

/-- Whether an error is the one of a list that is too short. -/
def MatchError.isOutOfRange : MatchError → Bool
  | .outOfRange _ _ => true
  | _ => false

namespace Matcher

variable {α β : Type}

/-! ## The judgement -/

/-- **The judgement.** From the state `s`, if it meets the invariant `I`, the computation ends in a state
    that meets it too and that `R` allows, with an answer that meets `Q`; or it fails in a state that `E`
    allows for its error. -/
def Leads (I : Matcher → Prop) (R : Matcher → Matcher → Prop)
    (E : MatchError → Matcher → Matcher → Prop) (x : MatchM α) (s : Matcher)
    (Q : α → Matcher → Prop) : Prop :=
  I s → match x s with
    | .ok a t => I t ∧ R s t ∧ Q a t
    | .error e t => E e s t

/-- The postcondition of a search: what is found meets `P`. -/
def IfFound (P : α → Prop) (found : Option α) (_ : Matcher) : Prop := ∀ a, found = some a → P a

/-- Relations along which computations can be put one after the other. -/
structure Passage (R : Matcher → Matcher → Prop)
    (E : MatchError → Matcher → Matcher → Prop) : Prop where
  refl : ∀ s, R s s
  trans : ∀ {s t u}, R s t → R t u → R s u
  fails : ∀ {e s t u}, R s t → E e t u → E e s u

section Rules

variable {I : Matcher → Prop} {R : Matcher → Matcher → Prop}
  {E : MatchError → Matcher → Matcher → Prop}

/-- The judgement read off a computation that gives an answer. -/
theorem Leads.of_ok {x : MatchM α} {s t : Matcher} {a : α} {Q : α → Matcher → Prop}
    (h : Leads I R E x s Q) (hs : I s) (hx : x s = .ok a t) : I t ∧ R s t ∧ Q a t := by
  have := h hs
  rwa [hx] at this

/-- How the state has changed after an answer, where the invariant says nothing. -/
theorem Leads.rel_of_ok {x : MatchM α} {s t : Matcher} {a : α} {Q : α → Matcher → Prop}
    (h : Leads (fun _ => True) R E x s Q) (hx : x s = .ok a t) : R s t :=
  (h.of_ok trivial hx).2.1

/-- The judgement read off a computation that fails. -/
theorem Leads.of_error {x : MatchM α} {s t : Matcher} {e : MatchError} {Q : α → Matcher → Prop}
    (h : Leads I R E x s Q) (hs : I s) (hx : x s = .error e t) : E e s t := by
  have := h hs
  rwa [hx] at this

/-- The invariant may be used for the judgement itself. -/
theorem Leads.given {x : MatchM α} {s : Matcher} {Q : α → Matcher → Prop}
    (h : I s → Leads I R E x s Q) : Leads I R E x s Q :=
  fun hs => h hs hs

theorem Passage.answer (p : Passage R E) {a : α} {s : Matcher} {Q : α → Matcher → Prop}
    (h : Q a s) : Leads I R E (pure a : MatchM α) s Q :=
  fun hs => ⟨hs, p.refl s, h⟩

theorem Passage.notFound (p : Passage R E) {s : Matcher} {P : α → Prop} :
    Leads I R E (pure none : MatchM (Option α)) s (IfFound P) :=
  p.answer fun _ h => by cases h

theorem Passage.found (p : Passage R E) {a : α} {s : Matcher} {P : α → Prop} (h : P a) :
    Leads I R E (pure (some a) : MatchM (Option α)) s (IfFound P) :=
  p.answer fun _ hb => Option.some.inj hb ▸ h

/-- **Sequencing.** The second computation is judged from every state in which the first may end. -/
theorem Passage.bind (p : Passage R E) {x : MatchM α} {f : α → MatchM β} {s : Matcher}
    {P : α → Matcher → Prop} {Q : β → Matcher → Prop} (hx : Leads I R E x s P)
    (hf : ∀ a t, x s = .ok a t → R s t → P a t → Leads I R E (f a) t Q) :
    Leads I R E (x >>= f) s Q := by
  intro hs
  cases hrun : x s with
  | error e t =>
    rw [bind_of_error hrun]
    exact hx.of_error hs hrun
  | ok a t =>
    obtain ⟨ht, hst, hP⟩ := hx.of_ok hs hrun
    have hfa := hf a t hrun hst hP ht
    rw [bind_of_ok hrun]
    cases hft : f a t with
    | ok b u =>
      rw [hft] at hfa
      exact ⟨hfa.1, p.trans hst hfa.2.1, hfa.2.2⟩
    | error e u =>
      rw [hft] at hfa
      exact p.fails hst hfa

/-- Looking at the state changes nothing. -/
theorem Leads.get_bind {f : Matcher → MatchM β} {s : Matcher} {Q : β → Matcher → Prop}
    (hf : Leads I R E (f s) s Q) : Leads I R E (get >>= f) s Q := hf

/-- A question to the host is judged by its two ends. -/
theorem leads_askHost {question : Question α} {s : Matcher} {Q : α → Matcher → Prop}
    (hok : ∀ a, I s → question.answer (s.host.record question.event) = .ok a →
      I { s with host := s.host.record question.event } ∧
        R s { s with host := s.host.record question.event } ∧
          Q a { s with host := s.host.record question.event })
    (herror : ∀ e, I s → question.answer (s.host.record question.event) = .error e →
      E (.host e) s { s with host := s.host.record question.event }) :
    Leads I R E (askHost question) s Q := by
  intro hs
  cases h : question.answer (s.host.record question.event) with
  | ok a =>
    rw [askHost_of_answer h]
    exact hok a hs h
  | error e =>
    rw [askHost_of_error h]
    exact herror e hs h

/-- A look at a part is judged by its three ends. -/
theorem leads_askOnce {path : AccessPath} {slot : NodeMemo → Option α}
    {keep : α → NodeMemo → NodeMemo} {question : Question α} {s : Matcher}
    {Q : α → Matcher → Prop}
    (hknown : ∀ a, I s → slot (s.scratch.memo path) = some a →
      I { s with scratch := (s.scratch.visit path).2 } ∧
        R s { s with scratch := (s.scratch.visit path).2 } ∧
          Q a { s with scratch := (s.scratch.visit path).2 })
    (hanswer : ∀ a, I s → slot (s.scratch.memo path) = none →
      question.answer (s.host.record question.event) = .ok a →
      I { s with
            host := s.host.record question.event
            scratch := s.scratch.learnt path question.event (keep a) } ∧
        R s { s with
            host := s.host.record question.event
            scratch := s.scratch.learnt path question.event (keep a) } ∧
          Q a { s with
            host := s.host.record question.event
            scratch := s.scratch.learnt path question.event (keep a) })
    (herror : ∀ e, I s → slot (s.scratch.memo path) = none →
      question.answer (s.host.record question.event) = .error e →
      E (.host e) s { s with
            host := s.host.record question.event
            scratch := s.scratch.noted path question.event }) :
    Leads I R E (observe (askOnce path slot keep question)) s Q := by
  intro hs
  unfold observe
  cases hslot : slot (s.scratch.memo path) with
  | some a =>
    rw [askOnce_of_known s.toObserver hslot]
    exact hknown a hs hslot
  | none =>
    cases h : question.answer (s.host.record question.event) with
    | ok a =>
      rw [askOnce_of_answer s.toObserver hslot h]
      exact hanswer a hs hslot h
    | error e =>
      rw [askOnce_of_error s.toObserver hslot h]
      exact herror e hs hslot h

/-- `I` asks of the memory that `M` holds of what is remembered about each part. It asks for nothing else
    that a look could change. -/
structure MemoryInvariant (M : NodeMemo → Prop) (I : Matcher → Prop) : Prop where
  memory : ∀ {s}, I s → ∀ path, M (s.scratch.memo path)
  remember : ∀ {s} {scratch : Scratch}, I s → (∀ path, M (scratch.memo path)) → I { s with scratch }
  record : ∀ {s} event, I s → I { s with host := s.host.record event }

/-- **A look keeps such an invariant** if what is answered may be remembered. What is seen meets `Q`, be it
    remembered or answered. -/
theorem MemoryInvariant.askOnce {M : NodeMemo → Prop} (m : MemoryInvariant M I) {path : AccessPath}
    {read : NodeMemo → Option α} {keep : α → NodeMemo → NodeMemo} {question : Question α} {Q : α → Prop}
    {s : Matcher} (hreads : ∀ memo a, M memo → read memo = some a → Q a)
    (hanswers : ∀ a, question.answer (s.host.record question.event) = .ok a → Q a)
    (hkeeps : ∀ memo a, M memo → Q a → M (keep a memo))
    (herrors : ∀ e t, question.answer (s.host.record question.event) = .error e → I t →
      E (.host e) s t) :
    Leads I (fun _ _ => True) E (observe (askOnce path read keep question)) s fun a _ => Q a := by
  refine leads_askOnce (fun a hs hread => ?_) (fun a hs _ hanswer => ?_) fun e hs _ herror => ?_
  · refine ⟨m.remember hs fun other => ?_, trivial, hreads _ a (m.memory hs path) hread⟩
    rw [Scratch.memo_visit]
    exact m.memory hs other
  · have hQ := hanswers a hanswer
    refine ⟨m.remember (m.record _ hs) fun other => ?_, trivial, hQ⟩
    rw [Scratch.memo_learnt]
    split
    · exact hkeeps _ a (m.memory hs path) hQ
    · exact m.memory hs other
  · refine herrors e _ herror (m.remember (m.record _ hs) fun other => ?_)
    rw [Scratch.memo_noted]
    exact m.memory hs other

end Rules

/-! ## What is asked of the steps -/

/-- The value was found to be an instance of a class, and then its kind was looked up. -/
def Admitted (I : Matcher → Prop) (R : Matcher → Matcher → Prop) (value : Value) (kind : MatchKind)
    (s : Matcher) : Prop :=
  ∃ type s₀ s₁ s₂, I s₀ ∧ askHost (.isInstance value type) s₀ = .ok true s₁ ∧
    kindOf value s₁ = .ok kind s₂ ∧ R s₂ s

theorem Admitted.mono {I : Matcher → Prop} {R : Matcher → Matcher → Prop}
    {E : MatchError → Matcher → Matcher → Prop} {value : Value} {kind : MatchKind} {s t : Matcher}
    (h : Admitted I R value kind s) (p : Passage R E) (hst : R s t) :
    Admitted I R value kind t := by
  obtain ⟨type, s₀, s₁, s₂, hs₀, hask, hkind, hs⟩ := h
  exact ⟨type, s₀, s₁, s₂, hs₀, hask, hkind, p.trans hs hst⟩

/-- **What is asked of the steps outside the bindings and the depth**: the parts of a value are found,
    compared and made. Every step keeps `I` and stays inside `R`, or inside `E` where it fails. The parts
    are asked for in the contexts that the hypotheses state. -/
structure PartEvolution (I : Matcher → Prop) (R : Matcher → Matcher → Prop)
    (E : MatchError → Matcher → Matcher → Prop) : Prop extends Passage R E where
  thrown : ∀ {e s}, I s → e.isOutOfRange = false → E e s s
  kindOf : ∀ value s, Leads I R E (kindOf value) s fun _ _ => True
  elements : ∀ {value kind s t} path, Matcher.kindOf value s = .ok kind t → kind.isSequence = true →
    Leads I R E (observe (.elements path value)) t fun _ _ => True
  mapping : ∀ {value kind s t} path, Matcher.kindOf value s = .ok kind t → kind.isMapping = true →
    Leads I R E (observe (.mapping path value)) t fun _ _ => True
  components : ∀ {value kind s} path, Admitted I R value kind s → kind.classMode = .positional →
    Leads I R E (observe (.components path value)) s fun _ _ => True
  declared : ∀ {value kind s} path, Admitted I R value kind s →
    kind.classMode = .positional ∨ kind.classMode = .default →
    Leads I R E (observe (.declared path value)) s fun _ _ => True
  fetch : ∀ {value kind s} path name, Admitted I R value kind s →
    kind.classMode = .selfValue ∨ kind.classMode = .default →
    Leads I R E (observe (.attribute? path value name)) s fun _ _ => True
  isInstance : ∀ value type s, Leads I R E (askHost (.isInstance value type)) s fun _ _ => True
  equals : ∀ a b s, Leads I R E (askHost (.equals a b)) s fun _ _ => True
  value : ∀ expr s, Leads I R E (askHost (.value expr)) s fun _ _ => True
  newList : ∀ items s, Leads I R E (newList items) s fun _ _ => True
  newDict : ∀ entries s, Leads I R E (newDict entries) s fun _ _ => True

/-- **What is asked of the steps of a matcher**, those that bind names and go deeper included. -/
structure Evolution (I : Matcher → Prop) (R : Matcher → Matcher → Prop)
    (E : MatchError → Matcher → Matcher → Prop) : Prop extends PartEvolution I R E where
  bind : ∀ name value s, Leads I R E (Matcher.bind name value) s fun _ _ => True
  attempt : ∀ {trial s}, Leads I R E trial s (fun _ _ => True) →
    Leads I R E (attempt trial) s fun _ _ => True
  descend : ∀ {inner s}, s.limitReached? = none →
    Leads I R E inner { s with depth := s.depth + 1 } (fun _ _ => True) →
    Leads I R E (descend inner) s fun _ _ => True

/-- The steps between patterns: bindings are dropped and guards are evaluated. -/
structure RunEvolution (I : Matcher → Prop) (R : Matcher → Matcher → Prop)
    (E : MatchError → Matcher → Matcher → Prop) : Prop extends Evolution I R E where
  reset : ∀ s, Leads I R E resetBindings s fun _ _ => True
  guard : ∀ guard s, Leads I R E (askHost (.guard guard s.bindings)) s fun _ _ => True

namespace PartEvolution

variable {I : Matcher → Prop} {R : Matcher → Matcher → Prop}
  {E : MatchError → Matcher → Matcher → Prop}

theorem raise (ev : PartEvolution I R E) {e : MatchError} {s : Matcher} {Q : α → Matcher → Prop}
    (h : e.isOutOfRange = false) : Leads I R E (throw e : MatchM α) s Q :=
  fun hs => ev.thrown hs h

/-! ## The parts of a value -/

/-- The targets of a sequence pattern, one per item. -/
theorem sequenceTargets (ev : PartEvolution I R E) (count : Nat) (star : Option Nat) (value : Value)
    (path : AccessPath) (s : Matcher) :
    Leads I R E (Matcher.sequenceTargets count star value path) s (IfFound fun found =>
      found.length = count) := by
  unfold Matcher.sequenceTargets
  refine ev.toPassage.bind (ev.kindOf value s) fun kind t hkind _ _ => ?_
  split
  · rename_i hseq
    refine ev.toPassage.bind (ev.elements path hkind hseq) fun elements u _ _ _ => ?_
    rw [splitElements_eq]
    exact ev.toPassage.answer fun _ => length_of_splitTargets
  · exact ev.toPassage.notFound

theorem keyIdentity (ev : PartEvolution I R E) (key : MappingKey) (s : Matcher) :
    Leads I R E (Matcher.keyIdentity key) s fun _ _ => True := by
  cases key with
  | literal constant => exact ev.toPassage.answer trivial
  | computed expr =>
    refine ev.toPassage.bind (ev.value expr s) fun key t _ _ _ => Leads.get_bind ?_
    split
    · exact ev.toPassage.answer trivial
    · exact ev.raise rfl

/-- **Present keys come with one value each.** -/
theorem presentKeys (ev : PartEvolution I R E) (view : MappingView Value) (keys : List MappingKey)
    (s : Matcher) :
    Leads I R E (Matcher.presentKeys view keys) s (IfFound fun found =>
      found.length = keys.length) := by
  induction keys generalizing s with
  | nil => exact ev.toPassage.found rfl
  | cons key rest ih =>
    rw [Matcher.presentKeys]
    refine ev.toPassage.bind (ev.keyIdentity key s) fun identity t _ _ _ => ?_
    split
    · exact ev.toPassage.notFound
    · refine ev.toPassage.bind (ih t) fun present u _ _ hrest => ?_
      cases present with
      | none => exact ev.toPassage.notFound
      | some tail => exact ev.toPassage.found (by simp only [List.length_cons, hrest tail rfl])

/-- The parts of a mapping pattern, one per entry. -/
theorem mappingParts (ev : PartEvolution I R E) (keys : List MappingKey) (rest : Option Name)
    (value : Value) (path : AccessPath) (s : Matcher) :
    Leads I R E (Matcher.mappingParts keys rest value path) s (IfFound fun found =>
      found.1.length = keys.length) := by
  unfold Matcher.mappingParts
  refine ev.toPassage.bind (ev.kindOf value s) fun kind t hkind _ _ => ?_
  split
  · rename_i hmap
    refine ev.toPassage.bind (ev.mapping path hkind hmap) fun view u _ _ _ => ?_
    split
    · refine ev.toPassage.bind (ev.presentKeys view keys u) fun present w _ _ hpresent => ?_
      cases present with
      | none => exact ev.toPassage.notFound
      | some slots =>
        exact ev.toPassage.found (by simp only [List.length_map, hpresent slots rfl])
    · exact ev.toPassage.notFound
  · exact ev.toPassage.notFound

/-! ## The parts of an instance -/

/-- **The positions of keywords lie below the number of components.** -/
theorem keywordSlots (ev : PartEvolution I R E) {value : Value} {kind : MatchKind} {s : Matcher}
    (had : Admitted I R value kind s) (hmode : kind.classMode = .positional) (keywords : List Name)
    (consumed length : Nat) (path : AccessPath) :
    Leads I R E (Matcher.keywordSlots keywords consumed length value path) s fun slots _ =>
      slots.length = keywords.length ∧ ∀ index ∈ slots, index < length := by
  unfold Matcher.keywordSlots
  split
  · rename_i hempty
    refine ev.toPassage.answer ⟨?_, fun index h => by cases h⟩
    rw [List.isEmpty_iff.mp hempty]
    rfl
  · refine ev.toPassage.bind (ev.declared path had (.inl hmode)) fun declared t _ _ _ => ?_
    split
    · rename_i e _
      exact ev.raise (by cases e <;> rfl)
    · rename_i slots hslots
      have hlen := length_resolveKeywordsFrom hslots
      split
      · rename_i e he
        obtain ⟨slot, _, rfl⟩ := Option.map_eq_some_iff.mp he
        exact ev.raise rfl
      · rename_i hnone
        exact ev.toPassage.answer ⟨hlen, lt_of_outOfRange?_none hlen hnone⟩

/-- The components for a class pattern, one per sub-pattern. -/
theorem componentParts (ev : PartEvolution I R E) {value : Value} {kind : MatchKind} {s : Matcher}
    (had : Admitted I R value kind s) (hmode : kind.classMode = .positional) (positional : Nat)
    (keywords : List Name) (path : AccessPath) :
    Leads I R E (Matcher.componentParts positional keywords value path) s (IfFound fun found =>
      found.1.length = positional ∧ found.2.length = keywords.length) := by
  unfold Matcher.componentParts
  refine ev.toPassage.bind (ev.components path had hmode) fun components t _ hst _ => ?_
  split
  · exact ev.toPassage.notFound
  · rename_i hlen
    refine ev.toPassage.bind
      (ev.keywordSlots (had.mono ev.toPassage hst) hmode keywords positional _ path)
      fun slots u _ _ hslots => ?_
    obtain ⟨hcount, hbelow⟩ := hslots
    have hle : positional ≤ components.length := by omega
    simp only [cutAt_of_le hle, pure_bind, componentPartsAt_eq hbelow]
    refine ev.toPassage.found ⟨?_, by rw [length_partsAt hbelow, hcount]⟩
    rw [length_componentPartsFrom, List.length_take]
    omega

/-- Attributes come one per name. -/
theorem attributePartsOf (ev : PartEvolution I R E) {value : Value} {kind : MatchKind} {s : Matcher}
    (had : Admitted I R value kind s)
    (hmode : kind.classMode = .selfValue ∨ kind.classMode = .default) (path : AccessPath)
    (names : List Name) :
    Leads I R E (Matcher.attributePartsOf value path names) s (IfFound fun found =>
      found.length = names.length) := by
  induction names generalizing s with
  | nil => exact ev.toPassage.found rfl
  | cons name rest ih =>
    rw [Matcher.attributePartsOf]
    refine ev.toPassage.bind (ev.fetch path name had hmode) fun found t _ hst _ => ?_
    split
    · exact ev.toPassage.notFound
    · refine ev.toPassage.bind (ih (had.mono ev.toPassage hst)) fun parts u _ _ hparts => ?_
      cases parts with
      | none => exact ev.toPassage.notFound
      | some tail => exact ev.toPassage.found (by simp only [List.length_cons, hparts tail rfl])

/-- The attributes that positional sub-patterns stand for, one per sub-pattern. -/
theorem positionalNames (ev : PartEvolution I R E) {value : Value} {kind : MatchKind} {s : Matcher}
    (had : Admitted I R value kind s) (type : TypeId) {positional : Nat}
    (hmode : positional = 0 ∨ kind.classMode = .default) (path : AccessPath) :
    Leads I R E (Matcher.positionalNames type positional value path) s fun names _ =>
      names.length = positional := by
  unfold Matcher.positionalNames
  split
  · rename_i hzero
    exact ev.toPassage.answer (by rw [hzero]; rfl)
  · rename_i hzero
    have hdefault := hmode.resolve_left hzero
    refine ev.toPassage.bind (ev.declared path had (.inr hdefault)) fun declared t _ _ _ => ?_
    split
    · refine ev.toPassage.bind (P := fun _ _ => False) (ev.raise rfl) fun _ _ _ _ h => h.elim
    · have hle : positional ≤ declared.length := by omega
      rw [cutAt_of_le hle, pure_bind]
      exact ev.toPassage.answer (by simp only [List.length_take]; omega)

theorem keywordNames (ev : PartEvolution I R E) (before keywords : List Name) (s : Matcher) :
    Leads I R E (Matcher.keywordNames before keywords) s fun names _ => names = keywords := by
  unfold Matcher.keywordNames
  split
  · rename_i names hnames
    exact ev.toPassage.answer (distinctAfter_ok hnames)
  · exact ev.raise rfl

/-- The attributes for a class pattern, one per sub-pattern. -/
theorem attributeParts (ev : PartEvolution I R E) {value : Value} {kind : MatchKind} {s : Matcher}
    (had : Admitted I R value kind s) (type : TypeId) {positional : Nat}
    (hmode : kind.classMode = .selfValue ∧ positional = 0 ∨ kind.classMode = .default)
    (keywords : List Name) (path : AccessPath) :
    Leads I R E (Matcher.attributeParts type positional keywords value path) s (IfFound fun found =>
      found.1.length = positional ∧ found.2.length = keywords.length) := by
  unfold Matcher.attributeParts
  refine ev.toPassage.bind (ev.positionalNames had type (hmode.imp And.right id) path)
    fun names t _ hst hnames => ?_
  refine ev.toPassage.bind (ev.keywordNames names keywords t) fun found u _ htu hfound => ?_
  subst hfound
  have had' := had.mono ev.toPassage (ev.trans hst htu)
  refine ev.toPassage.bind (ev.attributePartsOf had' (hmode.imp And.left id) path _)
    fun parts v _ _ hparts => ?_
  cases parts with
  | none => exact ev.toPassage.notFound
  | some parts =>
    have hlen := hparts parts rfl
    rw [List.length_append] at hlen
    have hle : positional ≤ parts.length := by omega
    simp only [cutAt_of_le hle, pure_bind]
    refine ev.toPassage.found ⟨?_, ?_⟩
    · rw [List.length_take]
      omega
    · rw [List.length_drop]
      omega

/-- What the targets of a class pattern are like: the value itself stands for a sole sub-pattern and only
    where its kind says so, and parts come one per sub-pattern. -/
def Fits (I : Matcher → Prop) (R : Matcher → Matcher → Prop) (positional keywords : Nat)
    (value : Value) : ClassTargets → Matcher → Prop
  | .none, _ => True
  | .itself, s => positional = 1 ∧ ∃ kind, Admitted I R value kind s ∧ kind.classMode = .selfValue
  | .parts first second, _ => first.length = positional ∧ second.length = keywords

/-- **The targets of a class pattern**, looked for once the value is known to be an instance. -/
theorem classTargets (ev : PartEvolution I R E) {value : Value} {type : TypeId} {s₀ s : Matcher}
    (hs₀ : I s₀) (hask : askHost (.isInstance value type) s₀ = .ok true s) (positional : Nat)
    (keywords : List Name) (path : AccessPath) :
    Leads I R E (Matcher.classTargets type positional keywords value path) s
      (Fits I R positional keywords.length value) := by
  unfold Matcher.classTargets
  refine ev.toPassage.bind (ev.kindOf value s) fun kind t hkind _ _ => ?_
  have had : Admitted I R value kind t := ⟨type, s₀, s, t, hs₀, hask, hkind, ev.refl t⟩
  split
  · exact ev.toPassage.answer trivial
  · rename_i hmode
    refine ev.toPassage.answer ?_
    split
    · rename_i hone
      exact ⟨hone, kind, had, hmode⟩
    · trivial
  · rename_i hmode
    refine ev.toPassage.bind (ev.componentParts had hmode positional keywords path)
      fun parts u _ _ hparts => ev.toPassage.answer ?_
    cases parts with
    | none => trivial
    | some parts => exact hparts parts rfl
  · rename_i hmode
    refine ev.toPassage.bind (ev.attributeParts had type (.inr hmode) keywords path)
      fun parts u _ _ hparts => ev.toPassage.answer ?_
    cases parts with
    | none => trivial
    | some parts => exact hparts parts rfl

/-! ## Comparisons -/

theorem matchLiteral (ev : PartEvolution I R E) (constant : Literal) (value : Value) (s : Matcher) :
    Leads I R E (Matcher.matchLiteral constant value) s fun _ _ => True := by
  unfold Matcher.matchLiteral
  refine Leads.get_bind ?_
  split
  · exact ev.toPassage.answer trivial
  · exact ev.equals value _ s

theorem matchValueRef (ev : PartEvolution I R E) (expr : ExprRef) (value : Value) (s : Matcher) :
    Leads I R E (Matcher.matchValueRef expr value) s fun _ _ => True := by
  unfold Matcher.matchValueRef
  exact ev.toPassage.bind (ev.value expr s) fun expected t _ _ _ => ev.equals value expected t

/-! ## Lanes -/

/-- What a step of a plan does before it tries its clauses. -/
theorem stepCandidates (ev : PartEvolution I R E) (subject : Value) (step : PlanStep) (s : Matcher) :
    Leads I R E (Matcher.stepCandidates subject step) s fun _ _ => True := by
  cases step with
  | clause index => exact ev.toPassage.answer trivial
  | sequenceLane clauses dispatch =>
    refine ev.toPassage.bind (ev.kindOf subject s) fun kind t hkind _ _ => ?_
    split
    · rename_i hseq
      exact ev.toPassage.bind (ev.elements .root hkind hseq) fun _ u _ _ _ =>
        ev.toPassage.answer trivial
    · exact ev.toPassage.answer trivial
  | mappingLane clauses tree =>
    refine ev.toPassage.bind (ev.kindOf subject s) fun kind t hkind _ _ => ?_
    split
    · rename_i hmap
      exact ev.toPassage.bind (ev.mapping .root hkind hmap) fun _ u _ _ _ =>
        ev.toPassage.answer trivial
    · exact ev.toPassage.answer trivial

end PartEvolution

/-! ## Patterns -/

namespace Evolution

variable {I : Matcher → Prop} {R : Matcher → Matcher → Prop}
  {E : MatchError → Matcher → Matcher → Prop}

/-- One level deeper, where the limit may be reached. -/
theorem descends (ev : Evolution I R E) {inner : MatchM Bool} {s : Matcher}
    (h : ∀ t, Leads I R E inner t fun _ _ => True) :
    Leads I R E (Matcher.descend inner) s fun _ _ => True := by
  cases hl : s.limitReached? with
  | none => exact ev.descend hl (h _)
  | some limit =>
    have hrun : Matcher.descend inner s = .error (.depthLimit limit) s := by
      simp only [Matcher.descend, hl]
    intro hs
    rw [hrun]
    exact ev.thrown hs rfl

theorem bindRest (ev : Evolution I R E) (rest : Option Name) (left : List (Value × Value))
    (s : Matcher) : Leads I R E (Matcher.bindRest rest left) s fun _ _ => True := by
  cases rest with
  | none => exact ev.toPassage.answer trivial
  | some name =>
    exact ev.toPassage.bind (ev.newDict left s) fun dict t _ _ _ => ev.bind name dict t

/-- A trial that decides whether to go on. -/
theorem goOn (ev : Evolution I R E) {trial next : MatchM Bool} {s : Matcher}
    (htrial : Leads I R E trial s fun _ _ => True)
    (hnext : ∀ t, R s t → Leads I R E next t fun _ _ => True) :
    Leads I R E (do if ← trial then next else return false) s fun _ _ => True := by
  refine ev.toPassage.bind htrial fun passed t _ hst _ => ?_
  split
  · exact hnext t hst
  · exact ev.toPassage.answer trivial

-- The induction follows the matcher: one lemma per function of the mutual recursion.
mutual
/-- **Matching a pattern stays inside `R` and `E`.** -/
theorem matchPattern (ev : Evolution I R E) : (pattern : Pattern) → (value : Value) →
    (path : AccessPath) → (s : Matcher) →
    Leads I R E (Matcher.matchPattern pattern value path) s fun _ _ => True
  | .wildcard, value, path, s => by
    rw [Matcher.matchPattern]
    exact ev.descends fun t => ev.toPassage.answer trivial
  | .capture name, value, path, s => by
    rw [Matcher.matchPattern]
    exact ev.descends fun t =>
      ev.toPassage.bind (ev.bind name value t) fun _ u _ _ _ => ev.toPassage.answer trivial
  | .literal constant, value, path, s => by
    rw [Matcher.matchPattern]
    exact ev.descends fun t => ev.matchLiteral constant value t
  | .valueRef expr, value, path, s => by
    rw [Matcher.matchPattern]
    exact ev.descends fun t => ev.matchValueRef expr value t
  | .sequence items star, value, path, s => by
    rw [Matcher.matchPattern]
    refine ev.descends fun t => ?_
    refine ev.toPassage.bind (ev.sequenceTargets items.length star value path t)
      fun targets u _ _ htargets => ?_
    cases targets with
    | none => exact ev.toPassage.answer trivial
    | some targets => exact ev.matchItems items targets path u (htargets targets rfl)
  | .mapping entries rest, value, path, s => by
    rw [Matcher.matchPattern]
    refine ev.descends fun t => ?_
    have hmapping := ev.mappingParts (entries.map (·.1)) rest value path t
    refine ev.toPassage.bind hmapping fun parts u _ _ hparts => ?_
    cases parts with
    | none => exact ev.toPassage.answer trivial
    | some found =>
      obtain ⟨parts, left⟩ := found
      have hlen := hparts _ rfl
      rw [List.length_map] at hlen
      refine ev.goOn (ev.matchEntries entries parts path u hlen) fun v _ => ?_
      exact ev.toPassage.bind (ev.bindRest rest left v) fun _ w _ _ _ => ev.toPassage.answer trivial
  | .ofClass type positional keywords, value, path, s => by
    rw [Matcher.matchPattern]
    refine ev.descends fun t => Leads.given fun ht => ?_
    refine ev.toPassage.bind (ev.isInstance value type t) fun isInstance u hask _ _ => ?_
    cases isInstance with
    | false => exact ev.toPassage.answer trivial
    -- From here on the value is known to be an instance, which the steps below rely on.
    | true =>
      rw [if_neg (by simp)]
      split
      · exact ev.toPassage.answer trivial
      · have hclass := ev.classTargets ht hask positional.length (keywords.map (·.1)) path
        refine ev.toPassage.bind hclass fun targets v _ _ hfits => ?_
        cases targets with
        | none => exact ev.toPassage.answer trivial
        | itself =>
          obtain ⟨hone, kind, had, hmode⟩ := hfits
          refine ev.goOn (ev.matchItself positional value path v) fun w hvw => ?_
          have hattributes := ev.attributeParts (had.mono ev.toPassage hvw) type
            (.inl ⟨hmode, rfl⟩) (keywords.map (·.1)) path
          refine ev.toPassage.bind hattributes fun parts x _ _ hparts => ?_
          cases parts with
          | none => exact ev.toPassage.answer trivial
          | some found =>
            obtain ⟨_, second⟩ := found
            have hlen := (hparts _ rfl).2
            rw [List.length_map] at hlen
            exact ev.matchKeywords keywords second path x hlen
        | parts first second =>
          obtain ⟨hfirst, hsecond⟩ := hfits
          rw [List.length_map] at hsecond
          refine ev.goOn (ev.matchItems positional (first.map .part) path v
            (by rw [List.length_map, hfirst])) fun w _ => ?_
          exact ev.matchKeywords keywords second path w hsecond
  | .named inner name, value, path, s => by
    rw [Matcher.matchPattern]
    refine ev.descends fun t => ev.goOn (ev.matchPattern inner value path t) fun u _ => ?_
    exact ev.toPassage.bind (ev.bind name value u) fun _ v _ _ _ => ev.toPassage.answer trivial
  | .anyOf alternatives, value, path, s => by
    rw [Matcher.matchPattern]
    exact ev.descends fun t => ev.matchFirst alternatives value path t

theorem matchItself (ev : Evolution I R E) : (patterns : List Pattern) → (value : Value) →
    (path : AccessPath) → (s : Matcher) →
    Leads I R E (Matcher.matchItself patterns value path) s fun _ _ => True
  | [], _, _, _ => ev.toPassage.answer trivial
  | [pattern], value, path, s => ev.matchPattern pattern value path s
  | _ :: _ :: _, _, _, _ => ev.toPassage.answer trivial

/-- Every item has its target. -/
theorem matchItems (ev : Evolution I R E) : (patterns : List Pattern) → (targets : List Target) →
    (path : AccessPath) → (s : Matcher) → targets.length = patterns.length →
    Leads I R E (Matcher.matchItems patterns targets path) s fun _ _ => True
  | [], targets, path, s, h => by
    rw [Matcher.matchItems]
    exact ev.toPassage.answer trivial
  | pattern :: rest, [], path, s, h => by cases h
  | pattern :: rest, .part part :: targets, path, s, h => by
    rw [Matcher.matchItems]
    refine ev.goOn (ev.matchPattern pattern part.value _ s) fun t _ => ?_
    exact ev.matchItems rest targets path t (Nat.succ.inj h)
  | pattern :: rest, .slice start items :: targets, path, s, h => by
    rw [Matcher.matchItems]
    have hrest (t : Matcher) := ev.matchItems rest targets path t (Nat.succ.inj h)
    split
    · exact hrest s
    · refine ev.toPassage.bind (ev.newList items s) fun value t _ _ _ => ?_
      exact ev.goOn (ev.matchPattern pattern value _ t) fun u _ => hrest u

/-- Every entry has its part. -/
theorem matchEntries (ev : Evolution I R E) : (entries : List (MappingKey × Pattern)) →
    (parts : List Part) → (path : AccessPath) → (s : Matcher) → parts.length = entries.length →
    Leads I R E (Matcher.matchEntries entries parts path) s fun _ _ => True
  | [], parts, path, s, h => by
    rw [Matcher.matchEntries]
    exact ev.toPassage.answer trivial
  | entry :: rest, [], path, s, h => by cases h
  | (_, pattern) :: rest, part :: parts, path, s, h => by
    rw [Matcher.matchEntries]
    refine ev.goOn (ev.matchPattern pattern part.value _ s) fun t _ => ?_
    exact ev.matchEntries rest parts path t (Nat.succ.inj h)

/-- Every keyword has its part. -/
theorem matchKeywords (ev : Evolution I R E) : (keywords : List (Name × Pattern)) →
    (parts : List Part) → (path : AccessPath) → (s : Matcher) → parts.length = keywords.length →
    Leads I R E (Matcher.matchKeywords keywords parts path) s fun _ _ => True
  | [], parts, path, s, h => by
    rw [Matcher.matchKeywords]
    exact ev.toPassage.answer trivial
  | keyword :: rest, [], path, s, h => by cases h
  | (_, pattern) :: rest, part :: parts, path, s, h => by
    rw [Matcher.matchKeywords]
    refine ev.goOn (ev.matchPattern pattern part.value _ s) fun t _ => ?_
    exact ev.matchKeywords rest parts path t (Nat.succ.inj h)

theorem matchFirst (ev : Evolution I R E) : (alternatives : List Pattern) → (value : Value) →
    (path : AccessPath) → (s : Matcher) →
    Leads I R E (Matcher.matchFirst alternatives value path) s fun _ _ => True
  | [], value, path, s => by
    rw [Matcher.matchFirst]
    exact ev.toPassage.answer trivial
  | pattern :: rest, value, path, s => by
    rw [Matcher.matchFirst]
    refine ev.toPassage.bind (ev.attempt (ev.matchPattern pattern value path s))
      fun matched t _ _ _ => ?_
    cases matched with
    | true => exact ev.toPassage.answer trivial
    | false => exact ev.matchFirst rest value path t
end

end Evolution

/-! ## Clauses and plans -/

namespace RunEvolution

variable {I : Matcher → Prop} {R : Matcher → Matcher → Prop}
  {E : MatchError → Matcher → Matcher → Prop}

theorem takeBindings (ev : RunEvolution I R E) (s : Matcher) :
    Leads I R E Matcher.takeBindings s fun _ _ => True := by
  unfold Matcher.takeBindings
  refine Leads.get_bind ?_
  exact ev.toPassage.bind (ev.reset s) fun _ t _ _ _ => ev.toPassage.answer trivial

theorem checkGuard (ev : RunEvolution I R E) (guard : Option GuardRef) (s : Matcher) :
    Leads I R E (Matcher.checkGuard guard) s fun _ _ => True := by
  cases guard with
  | none => exact ev.toPassage.answer trivial
  | some guard => exact Leads.get_bind (ev.guard guard s)

theorem tryClause (ev : RunEvolution I R E) (statement : Statement) (subject : Value) (index : Nat)
    (s : Matcher) : Leads I R E (Matcher.tryClause statement subject index) s fun _ _ => True := by
  unfold Matcher.tryClause
  split
  · exact ev.toPassage.answer trivial
  · rename_i clause _
    refine ev.toPassage.bind (ev.reset s) fun _ t _ _ _ => ?_
    refine ev.toPassage.bind (ev.matchPattern clause.pattern subject .root t)
      fun matched u _ _ _ => ?_
    split
    · exact ev.toPassage.answer trivial
    · refine ev.toPassage.bind (ev.checkGuard clause.guard u) fun passed v _ _ _ => ?_
      split
      · exact ev.toPassage.bind (ev.reset v) fun _ w _ _ _ => ev.toPassage.answer trivial
      · exact ev.toPassage.bind (ev.takeBindings v) fun _ w _ _ _ => ev.toPassage.answer trivial

theorem tryEach (ev : RunEvolution I R E) (statement : Statement) (subject : Value)
    (indices : List Nat) (s : Matcher) :
    Leads I R E (Matcher.tryEach statement subject indices) s fun _ _ => True := by
  induction indices generalizing s with
  | nil => exact ev.toPassage.answer trivial
  | cons index rest ih =>
    rw [Matcher.tryEach]
    refine ev.toPassage.bind (ev.tryClause statement subject index s) fun outcome t _ _ _ => ?_
    cases outcome with
    | some outcome => exact ev.toPassage.answer trivial
    | none => exact ih t

/-- **Trying every clause stays inside `R` and `E`.** -/
theorem runInOrder (ev : RunEvolution I R E) (statement : Statement) (subject : Value) (s : Matcher) :
    Leads I R E (Matcher.runInOrder statement subject) s fun _ _ => True := by
  unfold Matcher.runInOrder
  exact ev.toPassage.bind (ev.tryEach statement subject _ s) fun _ t _ _ _ =>
    ev.toPassage.answer trivial

theorem runSteps (ev : RunEvolution I R E) (statement : Statement) (subject : Value)
    (steps : List PlanStep) (s : Matcher) :
    Leads I R E (Matcher.runSteps statement subject steps) s fun _ _ => True := by
  induction steps generalizing s with
  | nil => exact ev.toPassage.answer trivial
  | cons step rest ih =>
    rw [Matcher.runSteps]
    refine ev.toPassage.bind (ev.stepCandidates subject step s) fun indices t _ _ _ => ?_
    refine ev.toPassage.bind (ev.tryEach statement subject indices t) fun outcome u _ _ _ => ?_
    cases outcome with
    | some outcome => exact ev.toPassage.answer trivial
    | none => exact ih u

/-- **Following any plan stays inside `R` and `E`.** -/
theorem runPlan (ev : RunEvolution I R E) (statement : Statement) (plan : Plan) (subject : Value)
    (s : Matcher) : Leads I R E (Matcher.runPlan statement plan subject) s fun _ _ => True := by
  unfold Matcher.runPlan
  exact ev.toPassage.bind (ev.runSteps statement subject plan.steps s) fun _ t _ _ _ =>
    ev.toPassage.answer trivial

end RunEvolution

end Matcher

end StructuralMatch

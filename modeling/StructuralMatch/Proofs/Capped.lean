import StructuralMatch.Proofs.Trials

/-!
# `Proofs.Capped` — computations under a depth limit

A computation with a depth limit is compared with the same one without. As long as the limit is not reached
both do the same. Where it is, the one with the limit ends, and what it has asked up to there the other has
asked as well (`Spared`).

`Capped` is the judgement for a computation that goes at most so many levels deep. It has a rule for each
building block, of which only `Capped.descend` looks at the limit, and holds at any height of what is done
between levels: the parts of a value are found and compared, names are bound.
-/

namespace StructuralMatch

namespace Matcher

variable {α β : Type}

/-! ## The judgement -/

/-- The state without a depth limit. -/
def uncapped (s : Matcher) : Matcher := { s with maxDepth := none }

/-- **A limited computation is spared or cut.** Its result, from the state `s`, is that of the unlimited one;
    or its limit lies within the levels that it goes deep, and what it has asked the unlimited one has asked
    as well. -/
inductive Spared (height : Nat) (s : Matcher) :
    EStateM.Result MatchError Matcher α → EStateM.Result MatchError Matcher α → Prop
  | answered (a : α) (t : Matcher) : Spared height s (.ok a t) (.ok a t.uncapped)
  | raised {e : MatchError} (t : Matcher) : (∀ limit, e ≠ .depthLimit limit) →
      Spared height s (.error e t) (.error e t.uncapped)
  | cut {limit : Nat} {t : Matcher} {result : EStateM.Result MatchError Matcher α} :
      s.maxDepth = some limit → limit < s.depth + height →
      t.host.log.toList <+: (stateAfter result).host.log.toList →
      Spared height s (.error (.depthLimit limit) t) result

/-- **The judgement.** The computation goes at most so many levels deep and comes back to its own. With a
    limit it is spared or cut. -/
structure Capped (height : Nat) (x : MatchM α) : Prop where
  frame : ∀ s, Frame s (stateAfter (x s))
  level : ∀ {s a t}, x s = .ok a t → Level s t
  spared : ∀ s, Spared height s (x s) (x s.uncapped)

namespace Capped

variable {height : Nat} {x : MatchM α} {f : α → MatchM β} {question : Question α}

/-! ### Steps -/

/-- A step that always gives an answer, and the same one with and without a limit. -/
theorem total {answer : Matcher → α} {next : Matcher → Matcher}
    (hx : ∀ s, x s = .ok (answer s) (next s)) (hframe : ∀ s, Frame s (next s))
    (hlevel : ∀ s, Level s (next s)) (hanswer : ∀ s, answer s.uncapped = answer s)
    (hnext : ∀ s, next s.uncapped = (next s).uncapped) : Capped height x where
  frame s := by
    rw [hx]
    exact hframe s
  level {s a t} h := by
    rw [hx] at h
    cases h
    exact hlevel s
  spared s := by
    rw [hx, hx, hanswer, hnext]
    exact .answered _ _

theorem pure (a : α) : Capped height (Pure.pure a : MatchM α) :=
  total (fun _ => rfl) Frame.refl Level.refl (fun _ => rfl) fun _ => rfl

theorem kindOf (value : Value) : Capped height (Matcher.kindOf value) :=
  total (kindOf_eq value) (Frame.resolve value.type) (fun _ => ⟨rfl, rfl⟩) (fun _ => rfl) fun _ => rfl

theorem newList (items : List Value) : Capped height (Matcher.newList items) :=
  total (fun _ => rfl) Frame.allocate (fun _ => ⟨rfl, rfl⟩) (fun _ => rfl) fun _ => rfl

theorem newDict (entries : List (Value × Value)) : Capped height (Matcher.newDict entries) :=
  total (fun _ => rfl) Frame.allocate (fun _ => ⟨rfl, rfl⟩) (fun _ => rfl) fun _ => rfl

/-- A change of the bindings. -/
theorem rebind (change : Bindings Value → Bindings Value) :
    Capped height (modify fun s => { s with bindings := change s.bindings } : MatchM Unit) :=
  total (fun _ => rfl) (fun s => (Frame.refl s).of_eq rfl rfl) (fun _ => ⟨rfl, rfl⟩) (fun _ => rfl)
    fun _ => rfl

/-- An error other than that of the limit. -/
theorem raise {e : MatchError} (h : ∀ limit, e ≠ .depthLimit limit) :
    Capped height (throw e : MatchM α) where
  frame := Frame.refl
  level h := by cases h
  spared s := .raised s h

theorem ask (question : Question α) : Capped height (askHost question) where
  frame s := by
    rw [← endState_eq]
    exact (Frame.ask question s).endState trivial (fun _ _ h => h) fun _ _ h => h
  level h := (Level.ask question _).rel_of_ok h
  spared s := by
    cases h : question.answer (s.host.record question.event) with
    | ok a =>
      rw [askHost_of_answer h, askHost_of_answer (s := s.uncapped) h]
      exact .answered a _
    | error e =>
      rw [askHost_of_error h, askHost_of_error (s := s.uncapped) h]
      exact .raised _ fun _ h => by cases h

theorem look (path : AccessPath) (slot : NodeMemo → Option α) (keep : α → NodeMemo → NodeMemo)
    (question : Question α) : Capped height (observe (askOnce path slot keep question)) where
  frame s := by
    rw [← endState_eq]
    exact (Frame.look path slot keep question s).endState trivial (fun _ _ h => h) fun _ _ h => h
  level h := (Level.look path slot keep question _).rel_of_ok h
  spared s := by
    have hobserver : s.uncapped.toObserver = s.toObserver := rfl
    unfold observe
    rw [hobserver]
    cases askOnce path slot keep question s.toObserver with
    | ok a observer => exact .answered a _
    | error e observer => exact .raised _ fun _ h => by cases h

/-! ### Composition -/

/-- A computation that goes less deep. -/
theorem mono {deeper : Nat} (h : Capped height x) (hle : height ≤ deeper) : Capped deeper x where
  frame := h.frame
  level := h.level
  spared s := by
    have hspared := h.spared s
    generalize x s = limited at hspared
    generalize x s.uncapped = free at hspared
    cases hspared with
    | answered a t => exact .answered a t
    | raised t hother => exact .raised t hother
    | cut hlimit hlt hlog => exact .cut hlimit (by omega) hlog

/-- Going on stays in the frame of what was done before. -/
theorem frame_bind (hf : ∀ a, Capped height (f a)) (s : Matcher) :
    Frame (stateAfter (x s)) (stateAfter ((x >>= f) s)) := by
  cases hx : x s with
  | ok a t =>
    rw [bind_of_ok hx]
    exact (hf a).frame t
  | error e t =>
    rw [bind_of_error hx]
    exact .refl t

/-- **Sequencing.** -/
theorem bind (hx : Capped height x) (hf : ∀ a, Capped height (f a)) : Capped height (x >>= f) where
  frame s := (hx.frame s).trans (frame_bind hf s)
  level h := by
    obtain ⟨a, t, hxs, hft⟩ := exists_of_bind_ok h
    exact (hx.level hxs).trans ((hf a).level hft)
  spared s := by
    have hspared := hx.spared s
    generalize hlimited : x s = limited at hspared
    generalize hfree : x s.uncapped = free at hspared
    cases hspared with
    | answered a t =>
      have hlevel := hx.level hlimited
      have hrest := (hf a).spared t
      rw [bind_of_ok hlimited, bind_of_ok hfree]
      generalize f a t = limited at hrest
      generalize f a t.uncapped = free at hrest
      cases hrest with
      | answered b u => exact .answered b u
      | raised u hother => exact .raised u hother
      | cut hlimit hlt hlog => exact .cut (hlevel.maxDepth ▸ hlimit) (hlevel.depth ▸ hlt) hlog
    | raised t hother =>
      rw [bind_of_error hlimited, bind_of_error hfree]
      exact .raised t hother
    | cut hlimit hlt hlog =>
      -- The unlimited computation goes on, and its log only grows.
      rw [bind_of_error hlimited]
      have hgrows := (frame_bind (x := x) hf s.uncapped).log
      rw [hfree] at hgrows
      exact .cut hlimit hlt (hlog.trans hgrows)

/-- Looking at what the limit is no part of. -/
theorem get_bind {f : Matcher → MatchM α} (hsame : ∀ s, f s.uncapped = f s)
    (hf : ∀ s, Capped height (f s)) : Capped height (get >>= f) where
  frame s := (hf s).frame s
  level {s _ _} h := (hf s).level h
  spared s := by
    show Spared height s (f s s) (f s.uncapped s.uncapped)
    rw [hsame]
    exact (hf s).spared s

/-- A trial that decides whether to go on. -/
theorem goOn {trial next : MatchM Bool} (htrial : Capped height trial) (hnext : Capped height next) :
    Capped height (do if ← trial then next else return false) := by
  apply htrial.bind
  intro matched
  split
  · exact hnext
  · exact pure false

theorem attempt {trial : MatchM Bool} (h : Capped height trial) :
    Capped height (Matcher.attempt trial) := by
  unfold Matcher.attempt
  apply get_bind (fun _ => rfl)
  intro s
  apply h.bind
  intro matched
  split
  · exact pure true
  · exact (rebind fun bindings => bindings.truncate s.bindings.mark).bind fun _ => pure false

/-! ### Levels -/

/-- Where a level is entered, the state after it is that of the inner computation. -/
theorem stateAfter_descend (inner : MatchM Bool) {s : Matcher} (h : s.limitReached? = none) :
    stateAfter (Matcher.descend inner s) =
      { stateAfter (inner { s with depth := s.depth + 1 }) with
        depth := (stateAfter (inner { s with depth := s.depth + 1 })).depth - 1 } := by
  cases hinner : inner { s with depth := s.depth + 1 } with
  | ok matched t => rw [descend_of_ok h hinner]; rfl
  | error e t => rw [descend_of_error h hinner]; rfl

theorem frame_descend {inner : MatchM Bool} (h : Capped height inner) (s : Matcher) :
    Frame s (stateAfter (Matcher.descend inner s)) := by
  cases hlimit : s.limitReached? with
  | some limit =>
    simp only [Matcher.descend, hlimit]
    exact .refl s
  | none =>
    have hdown : Frame s { s with depth := s.depth + 1 } := (Frame.refl s).of_eq rfl rfl
    rw [stateAfter_descend inner hlimit]
    exact (hdown.trans (h.frame _)).of_eq rfl rfl

/-- **One level deeper.** Only here the limit is looked at. -/
theorem descend {inner : MatchM Bool} (h : Capped height inner) :
    Capped (height + 1) (Matcher.descend inner) where
  frame := h.frame_descend
  level {s _ _} hrun := by
    obtain ⟨t, hinner, rfl⟩ := exists_of_descend_ok hrun
    have hlevel := h.level hinner
    exact ⟨by rw [hlevel.depth]; rfl, hlevel.maxDepth⟩
  spared s := by
    have hfree : s.uncapped.limitReached? = none := rfl
    cases hlimit : s.limitReached? with
    | some limit =>
      have hrun : Matcher.descend inner s = .error (.depthLimit limit) s := by
        simp only [Matcher.descend, hlimit]
      obtain ⟨hmax, hle⟩ := Option.filter_eq_some_iff.mp hlimit
      have hle : limit ≤ s.depth := of_decide_eq_true hle
      rw [hrun]
      exact .cut hmax (by omega) (h.frame_descend s.uncapped).log
    | none =>
      have hspared := h.spared { s with depth := s.depth + 1 }
      have hdeeper : ({ s with depth := s.depth + 1 } : Matcher).uncapped =
          { s.uncapped with depth := s.uncapped.depth + 1 } := rfl
      rw [hdeeper] at hspared
      have hafter := stateAfter_descend inner hfree
      generalize hlimited : inner { s with depth := s.depth + 1 } = limited at hspared
      generalize hunlimited : inner { s.uncapped with depth := s.uncapped.depth + 1 } = free at hspared
      cases hspared with
      | answered matched t =>
        rw [descend_of_ok hlimit hlimited, descend_of_ok hfree hunlimited]
        exact .answered matched _
      | raised t hother =>
        rw [descend_of_error hlimit hlimited, descend_of_error hfree hunlimited]
        exact .raised _ hother
      | cut hmax hlt hlog =>
        rw [descend_of_error hlimit hlimited]
        refine .cut hmax (by simp only at hlt; omega) ?_
        rw [hafter, hunlimited]
        exact hlog

/-! ### The parts of a value -/

theorem sequenceTargets (count : Nat) (star : Option Nat) (value : Value) (path : AccessPath) :
    Capped height (Matcher.sequenceTargets count star value path) := by
  unfold Matcher.sequenceTargets
  apply (kindOf value).bind
  intro kind
  split
  · apply (look path _ _ _).bind
    intro elements
    rw [splitElements_eq]
    exact pure _
  · exact pure none

theorem keyIdentity (key : MappingKey) : Capped height (Matcher.keyIdentity key) := by
  cases key with
  | literal constant => exact pure _
  | computed expr =>
    apply (ask (.value expr)).bind
    intro key
    apply get_bind (fun _ => rfl)
    intro s
    split
    · exact pure _
    · exact raise fun _ h => by cases h

theorem presentKeys (view : MappingView Value) (keys : List MappingKey) :
    Capped height (Matcher.presentKeys view keys) := by
  induction keys with
  | nil => exact pure _
  | cons key rest ih =>
    rw [Matcher.presentKeys]
    apply (keyIdentity key).bind
    intro identity
    split
    · exact pure none
    · exact ih.bind fun found => pure _

theorem mappingParts (keys : List MappingKey) (rest : Option Name) (value : Value)
    (path : AccessPath) : Capped height (Matcher.mappingParts keys rest value path) := by
  unfold Matcher.mappingParts
  apply (kindOf value).bind
  intro kind
  split
  · apply (look path _ _ _).bind
    intro view
    split
    · exact (presentKeys view keys).bind fun found => pure _
    · exact pure none
  · exact pure none

theorem cutAt (items : List α) (index : Nat) : Capped height (Matcher.cutAt items index) := by
  unfold Matcher.cutAt
  split
  · exact pure _
  · exact raise fun _ h => by cases h

theorem elementAt (items : List α) (index : Nat) : Capped height (Matcher.elementAt items index) := by
  unfold Matcher.elementAt
  split
  · exact pure _
  · exact raise fun _ h => by cases h

theorem componentPartsAt (components : List Value) (slots : List Nat) :
    Capped height (Matcher.componentPartsAt components slots) := by
  induction slots with
  | nil => exact pure _
  | cons index rest ih =>
    rw [Matcher.componentPartsAt]
    exact (elementAt components index).bind fun value => ih.bind fun parts => pure _

theorem keywordSlots (keywords : List Name) (consumed length : Nat) (value : Value)
    (path : AccessPath) : Capped height (Matcher.keywordSlots keywords consumed length value path) := by
  unfold Matcher.keywordSlots
  split
  · exact pure _
  · apply (look path _ _ _).bind
    intro declared
    split
    · rename_i fault _
      exact raise fun _ h => by cases fault <;> cases h
    · split
      · rename_i e hrange
        obtain ⟨slot, -, rfl⟩ := Option.map_eq_some_iff.mp hrange
        exact raise fun _ h => by cases h
      · exact pure _

theorem componentParts (positional : Nat) (keywords : List Name) (value : Value)
    (path : AccessPath) : Capped height (Matcher.componentParts positional keywords value path) := by
  unfold Matcher.componentParts
  apply (look path _ _ _).bind
  intro components
  split
  · exact pure none
  · apply (keywordSlots keywords positional components.length value path).bind
    intro slots
    apply (cutAt components positional).bind
    intro first
    exact (componentPartsAt components slots).bind fun second => pure _

theorem attributePartsOf (value : Value) (path : AccessPath) (names : List Name) :
    Capped height (Matcher.attributePartsOf value path names) := by
  induction names with
  | nil => exact pure _
  | cons name rest ih =>
    rw [Matcher.attributePartsOf]
    apply (look path _ _ _).bind
    intro found
    cases found with
    | none => exact pure none
    | some value => exact ih.bind fun parts => pure _

theorem positionalNames (type : TypeId) (positional : Nat) (value : Value) (path : AccessPath) :
    Capped height (Matcher.positionalNames type positional value path) := by
  unfold Matcher.positionalNames
  split
  · exact pure _
  · apply (look path _ _ _).bind
    intro declared
    split
    · exact (raise fun _ h => by cases h).bind fun _ => (cutAt _ _).bind fun _ => pure _
    · exact (cutAt declared positional).bind fun _ => pure _

theorem attributeParts (type : TypeId) (positional : Nat) (keywords : List Name) (value : Value)
    (path : AccessPath) :
    Capped height (Matcher.attributeParts type positional keywords value path) := by
  have hkeywords (before : List Name) : Capped height (keywordNames before keywords) := by
    unfold keywordNames
    split
    · exact pure _
    · exact raise fun _ h => by cases h
  unfold Matcher.attributeParts
  apply (positionalNames type positional value path).bind
  intro names
  apply (hkeywords names).bind
  intro found
  apply (attributePartsOf value path (names ++ found)).bind
  intro parts
  cases parts with
  | none => exact pure none
  | some parts => exact (cutAt parts positional).bind fun _ => pure _

theorem classTargets (type : TypeId) (positional : Nat) (keywords : List Name) (value : Value)
    (path : AccessPath) :
    Capped height (Matcher.classTargets type positional keywords value path) := by
  unfold Matcher.classTargets
  apply (kindOf value).bind
  intro kind
  split
  · exact pure _
  · exact pure _
  · exact (componentParts positional keywords value path).bind fun _ => pure _
  · exact (attributeParts type positional keywords value path).bind fun _ => pure _

theorem matchLiteral (constant : Literal) (value : Value) :
    Capped height (Matcher.matchLiteral constant value) := by
  unfold Matcher.matchLiteral
  apply get_bind (fun _ => rfl)
  intro s
  split
  · exact pure _
  · exact ask _

theorem matchValueRef (expr : ExprRef) (value : Value) :
    Capped height (Matcher.matchValueRef expr value) := by
  unfold Matcher.matchValueRef
  exact (ask _).bind fun expected => ask _

/-- A binding that completes a match. -/
theorem bindName (name : Name) (value : Value) :
    Capped height (do Matcher.bind name value; return true) :=
  (rebind fun bindings => bindings.bind name value).bind fun _ => pure true

theorem bindRest (rest : Option Name) (left : List (Value × Value)) :
    Capped height (do Matcher.bindRest rest left; return true) := by
  cases rest with
  | none => exact pure true
  | some name =>
    simp only [Matcher.bindRest, bind_assoc]
    exact (newDict left).bind fun dict => bindName name dict

end Capped

end Matcher

end StructuralMatch

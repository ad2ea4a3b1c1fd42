import StructuralMatch.Proofs.Evaluation

/-!
# `Proofs.Gating` — what has to be known before a part is asked for

The host is asked for the parts of a value only where the kind of its type provides for them: for
elements of a sequence, for entries of a mapping, for components and attributes as the class mode says.
Before a value is taken apart by a class pattern, the host has confirmed that it is an instance.

`Permitted` says this of one question and the questions before it, `Gated` of a whole list of questions.
The proof appends one question at a time (`Gated.snoc`). That a kind is the one of the untouched matcher
comes from the frame; that an instance was confirmed comes from `Admitted`, since the log only grows.

The main result is `Engine.questions_gated`.
-/

namespace StructuralMatch

/-! ## Orderly questions -/

/-- Some earlier question confirmed that the type is a subtype of a class. -/
def Confirmed (types : Registry) (before : List Event) (type : TypeId) : Prop :=
  ∃ target, .isInstance type target ∈ before ∧ types.isSubtype type target = true

/-- **Whether a question may be put**, given the kinds of types and the questions before it. -/
def Permitted (kind : TypeId → MatchKind) (types : Registry) (before : List Event) : Event → Prop
  | .sequenceView type => (kind type).shape = .sequence
  | .mappingEntries type => (kind type).shape = .mapping
  | .deconstruct type => (kind type).classMode = .positional ∧ Confirmed types before type
  | .matchArgs type =>
    ((kind type).classMode = .positional ∨ (kind type).classMode = .default) ∧
      Confirmed types before type
  | .getAttribute type _ =>
    ((kind type).classMode = .selfValue ∨ (kind type).classMode = .default) ∧
      Confirmed types before type
  | .isInstance .. | .equals | .evalValue _ | .guard _ => True

/-- **Every question of a list may be put after those before it.** -/
def Gated (kind : TypeId → MatchKind) (types : Registry) (events : List Event) : Prop :=
  ∀ before event after, events = before ++ event :: after → Permitted kind types before event

variable {kind : TypeId → MatchKind} {types : Registry} {events : List Event} {event : Event}

/-- Questions whose answers are not kept may always be put. -/
theorem permitted_of_unkept (h : event.slot? = none) : Permitted kind types events event := by
  cases event <;> trivial

theorem Gated.nil : Gated kind types [] := by
  intro before event after h
  simp at h

/-- **One more question.** -/
theorem Gated.snoc (h : Gated kind types events) (hevent : Permitted kind types events event) :
    Gated kind types (events ++ [event]) := by
  intro before other after heq
  -- The question is the last one if nothing comes after it, and among the earlier ones otherwise.
  rcases List.append_eq_append_iff.mp heq with ⟨extra, hbefore, hextra⟩ | ⟨extra, hevents, hother⟩
  · cases extra with
    | nil =>
      obtain ⟨rfl, _⟩ := List.cons.inj hextra
      rw [hbefore, List.append_nil]
      exact hevent
    | cons first rest =>
      have := (List.cons.inj hextra).2
      simp at this
  · cases extra with
    | nil =>
      obtain ⟨rfl, _⟩ := List.cons.inj hother
      rw [List.append_nil] at hevents
      exact hevents ▸ hevent
    | cons first rest =>
      obtain ⟨rfl, -⟩ := List.cons.inj hother
      exact h before other rest hevents

namespace Matcher

/-! ## Orderly states -/

/-- **The matcher is still in the frame of `base`**, and the questions it put since may be put in that
    order. -/
structure Orderly (base s : Matcher) : Prop where
  frame : Frame base s
  gated : ∃ events, s.host.log.toList = base.host.log.toList ++ events ∧
    Gated base.kindAt base.host.types events

/-- A question may be put in a state, whatever was asked since `base`. -/
def Allows (base s : Matcher) (event : Event) : Prop :=
  ∀ events, s.host.log.toList = base.host.log.toList ++ events →
    Permitted base.kindAt base.host.types events event

namespace Orderly

variable {base s t : Matcher}

theorem refl (base : Matcher) : Orderly base base :=
  ⟨Frame.refl base, [], (List.append_nil _).symm, Gated.nil⟩

/-- A step that asks nothing. -/
theorem silent (h : Orderly base s) (hst : Frame s t) (hlog : t.host.log = s.host.log) :
    Orderly base t :=
  ⟨h.frame.trans hst, hlog ▸ h.gated⟩

/-- A step that puts one question. -/
theorem record (h : Orderly base s) (hevent : Allows base s event) (hst : Frame s t)
    (hlog : t.host.log = s.host.log.push event) : Orderly base t where
  frame := h.frame.trans hst
  gated := by
    obtain ⟨events, hevents, hgated⟩ := h.gated
    refine ⟨events ++ [event], ?_, hgated.snoc (hevent events hevents)⟩
    rw [hlog, Array.toList_push, hevents, List.append_assoc]

/-- The kind that is looked up is the kind in the untouched matcher. -/
theorem kind_eq (h : Orderly base t) {value : Value} {found : MatchKind}
    (hkind : kindOf value s = .ok found t) : base.kindAt value.type = found := by
  rw [← h.frame.kinds, kind_of_kindOf hkind]
  rw [kindOf_eq] at hkind
  cases hkind
  exact s.kinds.kindIn_resolve s.host.types value.type value.type

/-- **An admitted value** has the kind that was looked up, and the log says that it is an instance. -/
theorem confirmed {value : Value} {found : MatchKind} (hs : Orderly base s)
    (h : Admitted (Orderly base) Frame value found s) :
    base.kindAt value.type = found ∧ ∀ events, s.host.log.toList = base.host.log.toList ++ events →
      Confirmed base.host.types events value.type := by
  obtain ⟨target, s₀, s₁, s₂, hs₀, hask, hkind, hframe⟩ := h
  have hkinds : base.kindAt value.type = s₂.kindAt value.type := by
    rw [← hs.frame.kinds, hframe.kinds]
  rw [kindOf_eq] at hkind
  cases hkind
  refine ⟨hkinds.trans (s₁.kinds.kindIn_resolve s₁.host.types value.type value.type), ?_⟩
  intro events hevents
  -- The instance test is the last entry of the log of `s₁`, and the log has only grown since.
  obtain ⟨events₀, hevents₀, -⟩ := hs₀.gated
  have hanswer : (Question.isInstance value target).answer
      (s₀.host.record (.isInstance value.type target)) =
        .ok (s₀.host.isInstanceOf value target) := rfl
  rw [askHost_of_answer hanswer] at hask
  simp only [EStateM.Result.ok.injEq] at hask
  obtain ⟨hinstance, rfl⟩ := hask
  refine ⟨target, ?_, ?_⟩
  · obtain ⟨later, hlater⟩ := hframe.log
    simp only [Question.isInstance, Host.record, Array.toList_push, hevents₀, hevents,
      List.append_assoc, List.append_cancel_left_eq] at hlater
    rw [← hlater]
    simp
  · rw [← hs₀.frame.world.types]
    exact hinstance

/-- A question to the host that is permitted. -/
theorem ask {α : Type} (question : Question α) (s : Matcher)
    (hevent : Allows base s question.event) :
    Leads (Orderly base) Frame (fun _ _ => Orderly base) (askHost question) s fun _ _ => True :=
  leads_askHost
    (fun _ hs _ => ⟨hs.record hevent (Frame.record s _) rfl, Frame.record s _, trivial⟩)
    fun _ hs _ => hs.record hevent (Frame.record s _) rfl

/-- A look at a part that is permitted. -/
theorem look {α : Type} (path : AccessPath) (slot : NodeMemo → Option α)
    (keep : α → NodeMemo → NodeMemo) (question : Question α) (s : Matcher)
    (hevent : Orderly base s → Allows base s question.event) :
    Leads (Orderly base) Frame (fun _ _ => Orderly base) (observe (askOnce path slot keep question)) s
      fun _ _ => True :=
  leads_askOnce
    (fun _ hs _ => ⟨hs.silent (Frame.remember s _) rfl, Frame.remember s _, trivial⟩)
    (fun _ hs _ _ =>
      ⟨hs.record (hevent hs) (Frame.asked s _ _) rfl, Frame.asked s question.event _, trivial⟩)
    fun _ hs _ _ => hs.record (hevent hs) (Frame.asked s _ _) rfl

/-- **Every step of an evaluation is orderly.** The hypotheses under which a part is asked for are what
    its question needs. -/
theorem evolution (base : Matcher) :
    RunEvolution (Orderly base) Frame fun _ _ => Orderly base :=
  ObserverEvolution.toRunEvolution {
    refl := Frame.refl
    trans := Frame.trans
    fails := fun _ h => h
    unchanged := fun {s _} hs hobserver hkinds =>
      have hst := (Frame.refl s).of_eq (congrArg Observer.host hobserver) hkinds
      ⟨hs.silent hst (congrArg (·.host.log) hobserver), hst⟩
    failsUnchanged := fun {_ _ t _} h hobserver hkinds =>
      h.silent ((Frame.refl t).of_eq (congrArg Observer.host hobserver) hkinds)
        (congrArg (·.host.log) hobserver)
    thrown := fun hs _ => hs
    resolve := fun type s hs => ⟨hs.silent (Frame.resolve type s) rfl, Frame.resolve type s⟩
    allocate := fun {s} hs => ⟨hs.silent (Frame.allocate s) rfl, Frame.allocate s⟩
    ask := fun question s hevent => ask question s fun _ _ => permitted_of_unkept hevent
    elements := fun path hkind hseq => look path _ _ _ _ fun ht _ _ => by
      simpa [Permitted, Question.elements, ht.kind_eq hkind, MatchKind.isSequence] using hseq
    mapping := fun path hkind hmap => look path _ _ _ _ fun ht _ _ => by
      simpa [Permitted, Question.mapping, ht.kind_eq hkind, MatchKind.isMapping] using hmap
    components := fun path had hmode => look path _ _ _ _ fun hs events hevents => by
      obtain ⟨hkind, hconfirmed⟩ := hs.confirmed had
      exact ⟨hkind ▸ hmode, hconfirmed events hevents⟩
    declared := fun path had hmode => look path _ _ _ _ fun hs events hevents => by
      obtain ⟨hkind, hconfirmed⟩ := hs.confirmed had
      exact ⟨hkind ▸ hmode, hconfirmed events hevents⟩
    fetch := fun path _ had hmode => look path _ _ _ _ fun hs events hevents => by
      obtain ⟨hkind, hconfirmed⟩ := hs.confirmed had
      exact ⟨hkind ▸ hmode, hconfirmed events hevents⟩ }

end Orderly

end Matcher

/-- **Parts are asked for only where the kind provides for them**, and after the value was found to be an
    instance where a class pattern asks. This holds of the questions of every evaluation, however it
    ends. -/
theorem Engine.questions_gated (engine : Engine) (strategy : Strategy) (host : Host)
    (compiled : CompiledStatement) (subject : Value) :
    ∃ events, (engine.matchValueWith strategy host compiled subject).host.log.toList =
        host.log.toList ++ events ∧
      Gated (fun type => (engine.resolve host.types type).1.kind) host.types events := by
  have hend : Matcher.Orderly (engine.matcher host)
      (engine.matcherAfter strategy host compiled subject) :=
    ((Matcher.Orderly.evolution (engine.matcher host)).evaluation compiled strategy subject
      _).endState (.refl _) (fun _ ht _ => ht) fun _ _ h => h
  rw [engine.host_matchValueWith]
  exact hend.gated

end StructuralMatch

import StructuralMatch.Proofs.KnownKinds
import StructuralMatch.Proofs.Registration

/-!
# `Proofs.History` — an evaluation does not depend on what happened before

An engine and a host are used for a while: statements are evaluated, and between evaluations the owner of
the host interns names, registers classes and sets values and guards. The engine remembers kinds all the
while. This module says that the memory does not show. An evaluation gives what a new engine would give on
the host as it is, and it only appends to the log of the host.

* `HostUpdate`, `Action` and `Session.run` describe a history.
* `Session.Grounded` asks that the objects in a subject belong to classes that are registered when the
  subject is evaluated.
* `Session.Sound` is the invariant: the kinds that the engine knows are right. It is kept by one action
  (`Session.Sound.step`), and so by a whole history (`Session.Sound.run`).
* The main result is `Session.evaluation_independent`.
-/

namespace StructuralMatch

/-! ## Changes of a host -/

/-- A change that the owner of a host makes. -/
inductive HostUpdate where
  | intern (text : String)
  | defineClass (definition : ClassDef)
  | defineClassUnchecked (definition : ClassDef)
  | addValue (value : Value)
  | setValue (expr : ExprRef) (value : Value)
  | addGuard (guard : Guard)

namespace Host

/-- The host with a new class, or as it was if the class is refused. -/
def afterRegistration (host : Host) : Except RegistryError (TypeId × Host) → Host
  | .ok (_, host) => host
  | .error _ => host

/-- The host after a change. -/
def updated (host : Host) : HostUpdate → Host
  | .intern text => (host.intern text).2
  | .defineClass definition => host.afterRegistration (host.defineClass definition)
  | .defineClassUnchecked definition => host.afterRegistration (host.defineClassUnchecked definition)
  | .addValue value => (host.addValue value).2
  | .setValue expr value => host.setValue expr value
  | .addGuard guard => (host.addGuard guard).2

/-- The host has more classes than before if the registry has. -/
theorem classes_afterRegistration {host : Host} {result : Except RegistryError (TypeId × Registry)}
    (h : ∀ type later, result = .ok (type, later) → host.types.classes <+: later.classes) :
    host.types.classes <+: (host.afterRegistration (host.withTypes result)).types.classes := by
  cases result with
  | error e => exact List.prefix_rfl
  | ok found => exact h found.1 found.2 rfl

/-- **No change of a host takes a class away or alters it.** -/
theorem classes_updated (host : Host) (change : HostUpdate) :
    host.types.classes <+: (host.updated change).types.classes := by
  cases change with
  | defineClass definition =>
    exact classes_afterRegistration fun _ _ => Registry.classes_isPrefix_of_tryOffer (.checked definition)
  | defineClassUnchecked definition =>
    exact classes_afterRegistration fun _ _ => Registry.classes_isPrefix_of_tryOffer (.unchecked definition)
  | intern | addValue | setValue | addGuard => exact List.prefix_rfl

end Host

/-! ## Histories -/

/-- Something that is done with an engine and a host. -/
inductive Action where
  | update (change : HostUpdate)
  | evaluate (strategy : Strategy) (compiled : CompiledStatement) (subject : Value)

/-- An engine and a host that are used together. -/
structure Session where
  engine : Engine
  host : Host

namespace Session

/-- A new engine on a host. -/
def start (config : EngineConfig) (host : Host) : Session := ⟨.ofConfig config, host⟩

/-- Evaluates a statement on a subject. -/
def evaluate (session : Session) (strategy : Strategy) (compiled : CompiledStatement)
    (subject : Value) : Evaluation Outcome :=
  session.engine.matchValueWith strategy session.host compiled subject

/-- The session after one action. -/
def step (session : Session) : Action → Session
  | .update change => { session with host := session.host.updated change }
  | .evaluate strategy compiled subject =>
    let evaluation := session.evaluate strategy compiled subject
    ⟨evaluation.engine, evaluation.host⟩

/-- The session after some actions. -/
def run (session : Session) (actions : List Action) : Session := actions.foldl step session

/-- A subject that is evaluated is grounded in the classes that are registered. -/
def Admits (session : Session) : Action → Prop
  | .update _ => True
  | .evaluate _ _ subject => subject.Grounded session.host.types

/-- Every subject is grounded in the classes that are registered when it is evaluated. -/
def Grounded (session : Session) : List Action → Prop
  | [] => True
  | action :: rest => session.Admits action ∧ (session.step action).Grounded rest

/-- A history is grounded if it is up to some point and from there on. -/
theorem grounded_append {session : Session} {first rest : List Action} :
    session.Grounded (first ++ rest) ↔ session.Grounded first ∧ (session.run first).Grounded rest := by
  induction first generalizing session with
  | nil => simp [Grounded, run]
  | cons action first ih => simp only [List.cons_append, Grounded, ih, run, List.foldl_cons, and_assoc]

/-! ## What an evaluation changes -/

/-- **An evaluation changes nothing of the host but its log**, which only grows. -/
theorem frame_evaluate (session : Session) (strategy : Strategy) (compiled : CompiledStatement)
    (subject : Value) :
    session.host.SameWorld (session.evaluate strategy compiled subject).host ∧
      session.host.log.toList <+: (session.evaluate strategy compiled subject).host.log.toList := by
  have hframe : Matcher.Frame (session.engine.matcher session.host)
      (session.engine.matcherAfter strategy session.host compiled subject) :=
    (Matcher.Frame.evolution.evaluation compiled strategy subject _).endState trivial
      (fun _ _ h => h) fun _ _ h => h
  unfold evaluate
  rw [Engine.host_matchValueWith]
  exact ⟨hframe.world, hframe.log⟩

/-! ## The invariant -/

/-- **The invariant**: the settings stay, and what the engine knows of the classes is right. -/
structure Sound (config : EngineConfig) (session : Session) : Prop where
  config : session.engine.config = config
  kinds : session.engine.kinds.Sound session.host.types
  builtins : session.host.types.HasBuiltins

namespace Sound

variable {config : EngineConfig} {session : Session}

theorem start (config : EngineConfig) {host : Host} (h : host.types.HasBuiltins) :
    Sound config (Session.start config host) :=
  ⟨rfl, KindCache.sound_empty host.types, h⟩

/-- **One action keeps the invariant.** -/
theorem step (h : Sound config session) {action : Action} (hadmits : session.Admits action) :
    Sound config (session.step action) := by
  cases action with
  -- What was right of the classes stays right, as they are only added to.
  | update change =>
    have hclasses := session.host.classes_updated change
    exact ⟨h.config, h.kinds.of_prefix hclasses, Nat.le_trans h.builtins hclasses.length_le⟩
  -- The classes stay, and only kinds of registered classes become known.
  | evaluate strategy compiled subject =>
    have htypes : (session.evaluate strategy compiled subject).host.types = session.host.types :=
      (session.frame_evaluate strategy compiled subject).1.types
    obtain ⟨-, -, hkinds⟩ :=
      Engine.matchValueWith_ofConfig h.kinds h.builtins hadmits strategy compiled
    refine ⟨?_, htypes ▸ hkinds, htypes ▸ h.builtins⟩
    rw [← h.config]
    exact session.engine.config_matchValueWith strategy session.host compiled subject

/-- **A whole history keeps the invariant.** -/
theorem run (h : Sound config session) {actions : List Action} (hgrounded : session.Grounded actions) :
    Sound config (session.run actions) := by
  induction actions generalizing session with
  | nil => exact h
  | cons action rest ih => exact ih (h.step hgrounded.1) hgrounded.2

end Sound

/-- **An evaluation does not depend on the history.** In a grounded history each evaluation gives the
    result that a new engine gives on the host as it is then, and leaves the same host, with the same
    questions in the log. Nothing but the log is changed, and the old log is a prefix of the new one. -/
theorem evaluation_independent (config : EngineConfig) {host : Host} (hbuiltins : host.types.HasBuiltins)
    {actions : List Action} (hgrounded : (start config host).Grounded actions)
    {before after : List Action} {strategy : Strategy} {compiled : CompiledStatement} {subject : Value}
    (hactions : actions = before ++ .evaluate strategy compiled subject :: after) :
    let session := (start config host).run before
    let kept := session.evaluate strategy compiled subject
    let new := (start config session.host).evaluate strategy compiled subject
    kept.result = new.result ∧ kept.host = new.host ∧ session.host.SameWorld kept.host ∧
      session.host.log.toList <+: kept.host.log.toList := by
  intro session kept new
  rw [hactions, grounded_append] at hgrounded
  obtain ⟨hbefore, hadmits, -⟩ := hgrounded
  have hsound : Sound config session := (Sound.start config hbuiltins).run hbefore
  obtain ⟨hresult, hhost, -⟩ :=
    Engine.matchValueWith_ofConfig hsound.kinds hsound.builtins hadmits strategy compiled
  rw [hsound.config] at hresult hhost
  obtain ⟨hworld, hlog⟩ := session.frame_evaluate strategy compiled subject
  exact ⟨hresult, hhost, hworld, hlog⟩

/-- A class is registered after a number was matched, and then a list with an instance is. -/
theorem evaluation_independent_of_instance :
    let compiled := (Engine.ofConfig {}).compile
      ⟨⟨0⟩, [⟨.sequence [.mapping [] none] none, none, ⟨0⟩⟩, ⟨.capture ⟨1⟩, none, ⟨1⟩⟩]⟩
    let before : List Action := [.evaluate .inOrder compiled (.int 5),
      .update (.defineClass { name := ⟨10⟩, kind := some .mapping })]
    let subject : Value := .list 1 [.object 2 ⟨9⟩ [] []]
    let session := (start {} .initial).run before
    let kept := session.evaluate .lanes compiled subject
    let new := (start {} session.host).evaluate .lanes compiled subject
    Host.initial.types.HasBuiltins ∧
      (start {} .initial).Grounded (before ++ [.evaluate .lanes compiled subject]) ∧
      kept.result = new.result ∧ kept.host = new.host ∧ session.host.SameWorld kept.host ∧
      session.host.log.toList <+: kept.host.log.toList := by
  intro compiled before subject session
  have hbuiltins : Host.initial.types.HasBuiltins := Registry.hasBuiltins_initial .initial
  have hnumber (types : Registry) : (Value.int 5).Grounded types :=
    Value.grounded_iff.mpr ⟨fun _ _ _ _ heq => (by cases heq), fun _ hpart => (by cases hpart)⟩
  have hinstance {types : Registry} (hclass : types.Registered ⟨9⟩) :
      (Value.object 2 ⟨9⟩ [] []).Grounded types := by
    refine Value.grounded_iff.mpr ⟨fun _ _ _ _ heq => ?_, fun _ hpart => ?_⟩
    · cases heq
      exact hclass
    · cases hpart with
      | field hmem => cases hmem
      | component hmem => cases hmem
  have hclass : session.host.types.Registered ⟨9⟩ := by
    show 9 < session.host.types.size
    decide +kernel
  have hsubject : subject.Grounded session.host.types :=
    Value.grounded_list fun item hitem => List.mem_singleton.mp hitem ▸ hinstance hclass
  have hgrounded : (start {} .initial).Grounded (before ++ [.evaluate .lanes compiled subject]) :=
    grounded_append.mpr ⟨⟨hnumber _, trivial, trivial⟩, hsubject, trivial⟩
  exact ⟨hbuiltins, hgrounded, evaluation_independent {} hbuiltins hgrounded rfl⟩

end Session

end StructuralMatch

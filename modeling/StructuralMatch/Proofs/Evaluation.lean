import StructuralMatch.Engine.Basic
import StructuralMatch.Proofs.Frame

/-!
# `Proofs.Evaluation` — the matcher that an evaluation leaves behind

An engine hands out the result, the kinds and the host. The memory and its ledger stay with the matcher,
which is gone afterwards. Statements about them are made about `Engine.matcherAfter`, the state in which
the evaluation ends, be it with an outcome or with an error.
-/

namespace StructuralMatch

/-- The state in which a computation ends. -/
def Matcher.endState {α : Type} (x : MatchM α) (s : Matcher) : Matcher :=
  match x s with
  | .ok _ t => t
  | .error _ t => t

/-- The computation that evaluates a statement by a strategy. -/
def CompiledStatement.evaluation (compiled : CompiledStatement) (strategy : Strategy)
    (subject : Value) : MatchM Outcome :=
  match strategy with
  | .inOrder => Matcher.runInOrder compiled.statement subject
  | .lanes => Matcher.runPlan compiled.statement compiled.plan subject

/-- The matcher that an engine sets an evaluation out with. -/
def Engine.matcher (engine : Engine) (host : Host) : Matcher :=
  .ofHost host engine.kinds engine.config.maxDepth

/-- The matcher that an evaluation leaves behind. -/
def Engine.matcherAfter (engine : Engine) (strategy : Strategy) (host : Host)
    (compiled : CompiledStatement) (subject : Value) : Matcher :=
  Matcher.endState (compiled.evaluation strategy subject) (engine.matcher host)

namespace Matcher

/-- What both ends of a judged computation have in common holds where it ends. -/
theorem Leads.endState {α : Type} {I : Matcher → Prop} {R : Matcher → Matcher → Prop}
    {E : MatchError → Matcher → Matcher → Prop} {x : MatchM α} {s : Matcher}
    {Q : α → Matcher → Prop} {P : Matcher → Prop} (h : Leads I R E x s Q) (hs : I s)
    (hok : ∀ t, I t → R s t → P t) (herror : ∀ e t, E e s t → P t) : P (endState x s) := by
  unfold Matcher.endState
  cases hx : x s with
  | ok a t =>
    obtain ⟨ht, hst, _⟩ := h.of_ok hs hx
    exact hok t ht hst
  | error e t => exact herror e t (h.of_error hs hx)

/-- **Either strategy stays inside `R` and `E`.** -/
theorem RunEvolution.evaluation {I : Matcher → Prop} {R : Matcher → Matcher → Prop}
    {E : MatchError → Matcher → Matcher → Prop} (ev : RunEvolution I R E)
    (compiled : CompiledStatement) (strategy : Strategy) (subject : Value) (s : Matcher) :
    Leads I R E (compiled.evaluation strategy subject) s fun _ _ => True := by
  cases strategy with
  | inOrder => exact ev.runInOrder compiled.statement subject s
  | lanes => exact ev.runPlan compiled.statement compiled.plan subject s

end Matcher

namespace Engine

section Ends

variable {engine : Engine} {host : Host} {compiled : CompiledStatement} {strategy : Strategy}
  {subject : Value} {t : Matcher}

/-- What an engine hands out after an outcome. -/
theorem matchValueWith_of_ok {outcome : Outcome}
    (h : compiled.evaluation strategy subject (engine.matcher host) = .ok outcome t) :
    engine.matchValueWith strategy host compiled subject =
      ⟨.ok outcome, { engine with kinds := t.kinds }, t.host⟩ := by
  unfold matcher at h
  show engine.run host engine.config.maxDepth (compiled.evaluation strategy subject) = _
  unfold run
  rw [h]

/-- What an engine hands out after an error. -/
theorem matchValueWith_of_error {e : MatchError}
    (h : compiled.evaluation strategy subject (engine.matcher host) = .error e t) :
    engine.matchValueWith strategy host compiled subject =
      ⟨.error e, { engine with kinds := t.kinds }, t.host⟩ := by
  unfold matcher at h
  show engine.run host engine.config.maxDepth (compiled.evaluation strategy subject) = _
  unfold run
  rw [h]

end Ends

/-- The host that an engine hands out is the one that its matcher observed. -/
theorem host_run {α : Type} (engine : Engine) (host : Host) (maxDepth : Option Nat) (x : MatchM α) :
    (engine.run host maxDepth x).host =
      (Matcher.endState x (.ofHost host engine.kinds maxDepth)).host := by
  unfold Engine.run Matcher.endState
  cases x (.ofHost host engine.kinds maxDepth) <;> rfl

/-- An evaluation does not change the settings. -/
theorem config_matchValueWith (engine : Engine) (strategy : Strategy) (host : Host)
    (compiled : CompiledStatement) (subject : Value) :
    (engine.matchValueWith strategy host compiled subject).engine.config = engine.config := by
  cases hrun : compiled.evaluation strategy subject (engine.matcher host) with
  | ok outcome t => rw [matchValueWith_of_ok hrun]
  | error e t => rw [matchValueWith_of_error hrun]

theorem host_matchValueWith (engine : Engine) (strategy : Strategy) (host : Host)
    (compiled : CompiledStatement) (subject : Value) :
    (engine.matchValueWith strategy host compiled subject).host =
      (engine.matcherAfter strategy host compiled subject).host :=
  engine.host_run host engine.config.maxDepth (compiled.evaluation strategy subject)

end Engine

end StructuralMatch

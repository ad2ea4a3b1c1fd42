import StructuralMatch.Proofs.FirstMatch
import StructuralMatch.Proofs.LaneRefinement

/-!
# `Proofs.Trials` — the clauses that an evaluation reaches

An evaluation tries clauses until one wins or an error ends it. Which clauses it reaches, and with which
matcher it tries each of them, is listed by `CompiledStatement.trials`, for both strategies.

* `Course` says how a search goes on from trial to trial. `course_runSteps` finds the course of a run among
  its trials, and what every course has is shown by induction on it.
* The clauses are reached in order and none is reached twice (`Engine.sublist_trials`).
* Whatever was tried before, each trial starts with a true memory and at the first level (`Ready`), so that
  its clause does what it would do alone.
-/

namespace StructuralMatch

/-- A clause that is tried, and the matcher that it is tried with. -/
structure Trial where
  index : Nat
  start : Matcher

namespace Matcher

/-! ## Trials -/

/-- The trials of a search of clauses. The next clause is reached if the one before loses. -/
def trialsEach (statement : Statement) (subject : Value) : List Nat → Matcher → List Trial
  | [], _ => []
  | index :: rest, s =>
    ⟨index, s⟩ ::
      match tryClause statement subject index s with
      | .ok none t => trialsEach statement subject rest t
      | _ => []

/-- The trials of the steps of a plan. The next step is reached if all clauses of the one before lose. -/
def trialsSteps (statement : Statement) (subject : Value) : List PlanStep → Matcher → List Trial
  | [], _ => []
  | step :: rest, s =>
    match stepCandidates subject step s with
    | .ok indices t =>
      trialsEach statement subject indices t ++
        match tryEach statement subject indices t with
        | .ok none u => trialsSteps statement subject rest u
        | _ => []
    | .error _ _ => []

end Matcher

namespace CompiledStatement

/-- The steps that a strategy takes. Without lanes every clause is a step of its own. -/
def steps (compiled : CompiledStatement) : Strategy → List PlanStep
  | .inOrder => (List.range compiled.statement.clauses.length).map .clause
  | .lanes => compiled.plan.steps

/-- **The trials of an evaluation.** -/
def trials (compiled : CompiledStatement) (strategy : Strategy) (subject : Value) (s : Matcher) :
    List Trial :=
  Matcher.trialsSteps compiled.statement subject (compiled.steps strategy) s

end CompiledStatement

namespace Matcher

variable {α : Type} {statement : Statement} {subject : Value}

/-! ## One trial -/

/-- The state that a result leaves behind. -/
def stateAfter : EStateM.Result MatchError Matcher α → Matcher
  | .ok _ t => t
  | .error _ t => t

theorem endState_eq (x : MatchM α) (s : Matcher) : endState x s = stateAfter (x s) := by
  unfold endState stateAfter
  cases x s <;> rfl

/-- What follows a pattern that matches if the clause has a guard. The guard decides, and no bindings are
    left in either case. -/
def judge (index : Nat) (clause : Clause) (guard : GuardRef) (bindings : Bindings Value) :
    MatchM (Option Outcome) := do
  let passed ← askHost (.guard guard bindings)
  resetBindings
  return if passed then some (.matched index clause.body bindings) else none

/-- **What the trial of a clause can do**: its pattern fails, with or without an error, or it matches and
    the guard decides, if there is one. -/
inductive Tried (statement : Statement) (subject : Value) (index : Nat) (s : Matcher) :
    EStateM.Result MatchError Matcher (Option Outcome) → Prop
  | noClause : statement.clauses[index]? = none → Tried statement subject index s (.ok none s)
  | raised {clause : Clause} {e : MatchError} {t : Matcher} :
      statement.clauses[index]? = some clause →
      matchPattern clause.pattern subject .root s.cleared = .error e t →
      Tried statement subject index s (.error e t)
  | failed {clause : Clause} {t : Matcher} :
      statement.clauses[index]? = some clause →
      matchPattern clause.pattern subject .root s.cleared = .ok false t →
      Tried statement subject index s (.ok none t)
  | unguarded {clause : Clause} {t : Matcher} :
      statement.clauses[index]? = some clause → clause.guard = none →
      matchPattern clause.pattern subject .root s.cleared = .ok true t →
      Tried statement subject index s (.ok (some (.matched index clause.body t.bindings)) t.cleared)
  | guarded {clause : Clause} {guard : GuardRef} {t : Matcher} :
      statement.clauses[index]? = some clause → clause.guard = some guard →
      matchPattern clause.pattern subject .root s.cleared = .ok true t →
      Tried statement subject index s (judge index clause guard t.bindings t)

/-- A guard is asked with the bindings that the pattern has made. -/
theorem settle_of_guard {index : Nat} {clause : Clause} {guard : GuardRef}
    (h : clause.guard = some guard) (s : Matcher) :
    settle index clause true s = judge index clause guard s.bindings s := by
  have hasked : settle index clause true s = (askHost (.guard guard s.bindings) >>= fun passed => do
      if !passed then
        resetBindings
        return none
      return some (.matched index clause.body (← takeBindings))) s := by
    unfold settle checkGuard
    rw [h]
    rfl
  rw [hasked, judge]
  cases hanswer : (Question.guard guard s.bindings).answer (s.host.record (.guard guard)) with
  | ok passed =>
    rw [bind_of_ok (askHost_of_answer hanswer), bind_of_ok (askHost_of_answer hanswer)]
    cases passed <;> rfl
  | error e => rw [bind_of_error (askHost_of_error hanswer), bind_of_error (askHost_of_error hanswer)]

theorem tried_tryClause (statement : Statement) (subject : Value) (index : Nat) (s : Matcher) :
    Tried statement subject index s (tryClause statement subject index s) := by
  cases hclause : statement.clauses[index]? with
  | none =>
    rw [tryClause_of_noClause hclause]
    exact .noClause hclause
  | some clause =>
    rw [tryClause_eq hclause]
    cases hrun : matchPattern clause.pattern subject .root s.cleared with
    | error e t =>
      rw [bind_of_error hrun]
      exact .raised hclause hrun
    | ok matched t =>
      rw [bind_of_ok hrun]
      cases matched with
      | false => exact .failed hclause hrun
      | true =>
        cases hguard : clause.guard with
        | none =>
          have hsettle : settle index clause true t =
              .ok (some (.matched index clause.body t.bindings)) t.cleared := by
            unfold settle
            rw [hguard]
            rfl
          rw [hsettle]
          exact .unguarded hclause hguard hrun
        | some guard =>
          rw [settle_of_guard hguard]
          exact .guarded hclause hguard hrun

/-! ## Both strategies take steps -/

/-- Steps that are single clauses try these clauses. -/
theorem runSteps_clauses (statement : Statement) (subject : Value) (indices : List Nat) :
    runSteps statement subject (indices.map .clause) = tryEach statement subject indices := by
  induction indices with
  | nil => rfl
  | cons index rest ih =>
    have hsplit : index :: rest = [index] ++ rest := rfl
    rw [hsplit, tryEach_append, ← ih]
    rfl

/-- An evaluation takes the steps of its strategy. -/
theorem evaluation_eq (compiled : CompiledStatement) (strategy : Strategy) (subject : Value) :
    compiled.evaluation strategy subject = do
      return (← runSteps compiled.statement subject (compiled.steps strategy)).getD .noMatch := by
  cases strategy with
  | inOrder =>
    rw [CompiledStatement.steps, runSteps_clauses]
    rfl
  | lanes => rfl

/-! ## The course of a search -/

/-- **The course of a search** that starts from a state, makes the trials and ends in the result. Between
    trials a lane may look at the subject. -/
inductive Course (statement : Statement) (subject : Value) :
    Matcher → List Trial → EStateM.Result MatchError Matcher (Option Outcome) → Prop
  | done (s : Matcher) : Course statement subject s [] (.ok none s)
  | won {index : Nat} {s t : Matcher} {outcome : Outcome} :
      tryClause statement subject index s = .ok (some outcome) t →
      Course statement subject s [⟨index, s⟩] (.ok (some outcome) t)
  | failed {index : Nat} {s t : Matcher} {e : MatchError} :
      tryClause statement subject index s = .error e t →
      Course statement subject s [⟨index, s⟩] (.error e t)
  | lost {index : Nat} {s t : Matcher} {trials : List Trial}
      {result : EStateM.Result MatchError Matcher (Option Outcome)} :
      tryClause statement subject index s = .ok none t → Course statement subject t trials result →
      Course statement subject s (⟨index, s⟩ :: trials) result
  | looked {step : PlanStep} {indices : List Nat} {s t : Matcher} {trials : List Trial}
      {result : EStateM.Result MatchError Matcher (Option Outcome)} :
      stepCandidates subject step s = .ok indices t → Course statement subject t trials result →
      Course statement subject s trials result
  | blind {step : PlanStep} {s t : Matcher} {e : MatchError} :
      stepCandidates subject step s = .error e t → Course statement subject s [] (.error e t)

namespace Course

variable {s t : Matcher} {first trials : List Trial}
  {result : EStateM.Result MatchError Matcher (Option Outcome)}

/-- A search that finds nothing is followed by another. -/
theorem append (hfirst : Course statement subject s first (.ok none t))
    (hrest : Course statement subject t trials result) :
    Course statement subject s (first ++ trials) result := by
  generalize hend : (EStateM.Result.ok none t : EStateM.Result MatchError Matcher _) = lost at hfirst
  induction hfirst with
  | done u =>
    cases hend
    exact hrest
  | won | failed | blind => cases hend
  | lost htry _ ih => exact .lost htry (ih hend)
  | looked hlook _ ih => exact .looked hlook (ih hend)

/-- **What holds before the first trial and is kept holds before every trial.** -/
theorem forall_start {P : Matcher → Prop} (h : Course statement subject s trials result) (hs : P s)
    (htry : ∀ {index u v}, P u → tryClause statement subject index u = .ok none v → P v)
    (hlook : ∀ {step u indices v}, P u → stepCandidates subject step u = .ok indices v → P v) :
    ∀ trial ∈ trials, P trial.start := by
  induction h with
  | done | blind =>
    intro trial htrial
    cases htrial
  | won | failed => exact List.forall_mem_singleton.mpr hs
  | lost hrun _ ih => exact List.forall_mem_cons.mpr ⟨hs, ih (htry hs hrun)⟩
  | looked hrun _ ih => exact ih (hlook hs hrun)

/-- The end of a search is in the frame of its start. -/
theorem frame (h : Course statement subject s trials result) : Frame s (stateAfter result) := by
  have htried {index : Nat} {u : Matcher} := Frame.evolution.tryClause statement subject index u
  have hlooked {step : PlanStep} {u : Matcher} := Frame.evolution.stepCandidates subject step u
  induction h with
  | done u => exact .refl u
  | won htry => exact htried.rel_of_ok htry
  | failed htry => exact htried.of_error trivial htry
  | lost htry _ ih => exact (htried.rel_of_ok htry).trans ih
  | looked hlook _ ih => exact (hlooked.rel_of_ok hlook).trans ih
  | blind hlook => exact hlooked.of_error trivial hlook

/-- **The end of a search is in the frame of the end of each trial.** -/
theorem frame_of_mem (h : Course statement subject s trials result) :
    ∀ trial ∈ trials,
      Frame (endState (tryClause statement subject trial.index) trial.start) (stateAfter result) := by
  induction h with
  | done | blind =>
    intro trial htrial
    cases htrial
  | won htry | failed htry =>
    refine List.forall_mem_singleton.mpr ?_
    rw [endState_eq, htry]
    exact .refl _
  | lost htry hrest ih =>
    refine List.forall_mem_cons.mpr ⟨?_, ih⟩
    rw [endState_eq, htry]
    exact hrest.frame
  | looked _ _ ih => exact ih

/-- **The last trial wins**, if any does. -/
theorem exists_last_of_won {outcome : Outcome}
    (h : Course statement subject s trials (.ok (some outcome) t)) :
    ∃ before trial, trials = before ++ [trial] ∧
      tryClause statement subject trial.index trial.start = .ok (some outcome) t := by
  generalize hend : EStateM.Result.ok (some outcome) t = won at h
  induction h with
  | won htry =>
    cases hend
    exact ⟨[], _, rfl, htry⟩
  | done | failed | blind => cases hend
  | lost _ _ ih =>
    obtain ⟨before, trial, rfl, hwins⟩ := ih hend
    exact ⟨_ :: before, trial, rfl, hwins⟩
  | looked _ _ ih => exact ih hend

end Course

/-- Trying clauses is a search with these trials. -/
theorem course_tryEach (statement : Statement) (subject : Value) (indices : List Nat) (s : Matcher) :
    Course statement subject s (trialsEach statement subject indices s)
      (tryEach statement subject indices s) := by
  induction indices generalizing s with
  | nil => exact .done s
  | cons index rest ih =>
    rw [trialsEach, tryEach]
    cases htry : tryClause statement subject index s with
    | ok found t =>
      rw [bind_of_ok htry]
      cases found with
      | some outcome => exact .won htry
      | none => exact .lost htry (ih t)
    | error e t =>
      rw [bind_of_error htry]
      exact .failed htry

/-- **Taking the steps of a plan is a search with these trials.** -/
theorem course_runSteps (statement : Statement) (subject : Value) (steps : List PlanStep)
    (s : Matcher) :
    Course statement subject s (trialsSteps statement subject steps s)
      (runSteps statement subject steps s) := by
  induction steps generalizing s with
  | nil => exact .done s
  | cons step rest ih =>
    rw [trialsSteps, runSteps]
    cases hlook : stepCandidates subject step s with
    | error e t =>
      rw [bind_of_error hlook]
      exact .blind hlook
    | ok indices t =>
      rw [bind_of_ok hlook]
      refine .looked hlook ?_
      dsimp only
      have hfirst := course_tryEach statement subject indices t
      cases htry : tryEach statement subject indices t with
      | ok found u =>
        rw [htry] at hfirst
        rw [bind_of_ok htry]
        cases found with
        | some outcome =>
          rw [List.append_nil]
          exact hfirst
        | none => exact hfirst.append (ih u)
      | error e u =>
        rw [htry] at hfirst
        rw [bind_of_error htry, List.append_nil]
        exact hfirst

/-! ## The order of the trials -/

theorem sublist_offered {ρ : Type} (rows : List (Nat × ρ)) (admits : α → ρ → Bool) (found : Option α) :
    (offered rows admits found).Sublist (rows.map (·.1)) := by
  cases found with
  | none => exact List.nil_sublist _
  | some a => exact List.filter_sublist.map _

/-- **A lane leaves clauses out and does not reorder them.** -/
theorem sublist_of_stepCandidates {roles : List LaneRole} {step : PlanStep} (hfits : step.Fits roles)
    {indices : List Nat} {s t : Matcher} (h : stepCandidates subject step s = .ok indices t) :
    indices.Sublist step.covered := by
  cases hfits with
  | clause index =>
    cases h
    exact List.Sublist.refl [index]
  | sequenceLane rows =>
    rw [stepCandidates_sequenceLane] at h
    obtain ⟨found, u, -, hoffered⟩ := exists_of_bind_ok h
    cases hoffered
    exact sublist_offered rows _ found
  | mappingLane rows =>
    rw [stepCandidates_mappingLane] at h
    obtain ⟨found, u, -, hoffered⟩ := exists_of_bind_ok h
    cases hoffered
    exact sublist_offered rows _ found

/-- The clauses are reached in the order in which they are to be tried. -/
theorem sublist_trialsEach (statement : Statement) (subject : Value) (indices : List Nat)
    (s : Matcher) : ((trialsEach statement subject indices s).map (·.index)).Sublist indices := by
  induction indices generalizing s with
  | nil => exact List.Sublist.refl []
  | cons index rest ih =>
    rw [trialsEach, List.map_cons]
    refine List.Sublist.cons_cons index ?_
    split
    · exact ih _
    · exact List.nil_sublist rest

theorem sublist_trialsSteps {roles : List LaneRole} {steps : List PlanStep}
    (hfits : ∀ step ∈ steps, step.Fits roles) (s : Matcher) :
    ((trialsSteps statement subject steps s).map (·.index)).Sublist (steps.flatMap PlanStep.covered) := by
  induction steps generalizing s with
  | nil => exact List.Sublist.refl []
  | cons step rest ih =>
    obtain ⟨hstep, hrest⟩ := List.forall_mem_cons.mp hfits
    rw [trialsSteps, List.flatMap_cons]
    split
    · rename_i indices t hlook
      rw [List.map_append]
      refine List.Sublist.append ?_ ?_
      · exact (sublist_trialsEach statement subject indices t).trans
          (sublist_of_stepCandidates hstep hlook)
      · split
        · exact ih hrest _
        · exact List.nil_sublist _
    · exact List.nil_sublist _

end Matcher

/-- **An evaluation is the search that its steps make.** -/
theorem Engine.matchValueWith_eq (engine : Engine) (strategy : Strategy) (host : Host)
    (compiled : CompiledStatement) (subject : Value) :
    let result := Matcher.runSteps compiled.statement subject (compiled.steps strategy)
      (engine.matcher host)
    engine.matchValueWith strategy host compiled subject =
      ⟨Matcher.answer result, { engine with kinds := (Matcher.stateAfter result).kinds },
        (Matcher.stateAfter result).host⟩ := by
  intro result
  have hevaluation := Matcher.evaluation_eq compiled strategy subject
  cases hresult : result with
  | ok found t =>
    have hend : compiled.evaluation strategy subject (engine.matcher host) =
        .ok (found.getD .noMatch) t := by
      rw [hevaluation, Matcher.bind_of_ok hresult]
      rfl
    exact engine.matchValueWith_of_ok hend
  | error e t =>
    have hend : compiled.evaluation strategy subject (engine.matcher host) = .error e t := by
      rw [hevaluation, Matcher.bind_of_error hresult]
    exact engine.matchValueWith_of_error hend

/-- The steps of either strategy fit the clauses. -/
theorem Engine.fits_steps (engine : Engine) (statement : Statement) (strategy : Strategy) :
    ∀ step ∈ (engine.compile statement).steps strategy,
      step.Fits (statement.clauses.map (·.laneRole)) := by
  cases strategy with
  | inOrder =>
    intro step hstep
    obtain ⟨index, -, rfl⟩ := List.mem_map.mp hstep
    exact .clause index
  | lanes => exact statement.fits_compile engine.config.lanes

/-- The steps of either strategy stand for all clauses in order. -/
theorem Engine.covered_steps (engine : Engine) (statement : Statement) (strategy : Strategy) :
    ((engine.compile statement).steps strategy).flatMap PlanStep.covered =
      List.range statement.clauses.length := by
  cases strategy with
  | inOrder =>
    show ((List.range statement.clauses.length).map PlanStep.clause).flatMap PlanStep.covered = _
    rw [List.flatMap_map]
    exact List.flatMap_singleton' _
  | lanes => exact statement.covered_compile engine.config.lanes

/-- **The clauses are reached in order, and none is reached twice.** -/
theorem Engine.sublist_trials (engine : Engine) (statement : Statement) (strategy : Strategy)
    (subject : Value) (s : Matcher) :
    (((engine.compile statement).trials strategy subject s).map (·.index)).Sublist
      (List.range statement.clauses.length) := by
  rw [← engine.covered_steps statement strategy]
  exact Matcher.sublist_trialsSteps (engine.fits_steps statement strategy) s

namespace Matcher

/-! ## What a trial starts with -/

variable {statement : Statement} {subject : Value} {base s t : Matcher}

/-- **Ready for a clause**: the memory is true, and the level is the one of `base`. -/
structure Ready (subject : Value) (base s : Matcher) : Prop where
  truthful : Truthful subject base s
  level : Level base s

namespace Ready

/-- Without its bindings a matcher that is ready stands beside the one it started from. -/
theorem beside (hbase : Truthful subject base base) (h : Ready subject base s) :
    Beside subject base s.cleared base.cleared where
  left := h.truthful.moved .empty s.depth
  right := hbase.moved .empty base.depth
  depth := h.level.depth
  maxDepth := h.level.maxDepth
  bindings := .nil

/-- **A pattern does in a matcher that is ready what it does alone**, and binds twins. -/
theorem matchPattern (hbase : Truthful subject base base) (h : Ready subject base s)
    {pattern : Pattern} {matched : Bool}
    (hrun : Matcher.matchPattern pattern subject .root s.cleared = .ok matched t) :
    ∃ u, Matcher.matchPattern pattern subject .root base.cleared = .ok matched u ∧
      Beside subject base t u := by
  have hroot : Seen subject base .root subject subject := ⟨.root subject, .same subject⟩
  have hagree := (Beside.correspondence subject base).matchPattern pattern subject subject .root hroot
    s.cleared base.cleared (h.beside hbase)
  rw [hrun] at hagree
  obtain ⟨_, u, halone, hbeside, rfl⟩ := hagree.of_ok
  exact ⟨u, halone, hbeside⟩

/-- A matcher that is ready stands beside itself. -/
theorem beside_self (h : Ready subject base s) : Beside subject base s s :=
  .of_samePlace h.truthful h.truthful ⟨rfl, rfl, rfl⟩

/-- **A computation that two matchers side by side do alike keeps a matcher ready**, if it comes back to
    its level. -/
theorem kept {α : Type} {x : MatchM α} {Q : α → α → Prop}
    (hx : Agree (Beside subject base) (fun _ _ => True) x x Q)
    (hlevel : Leads (fun _ => True) Level (fun _ => Level) x s fun _ _ => True) {a : α}
    (hrun : x s = .ok a t) (h : Ready subject base s) : Ready subject base t := by
  have halike := hx s s h.beside_self
  rw [hrun] at halike
  obtain ⟨-, u, hagain, hbeside, -⟩ := halike.of_ok
  exact ⟨hbeside.left, h.level.trans (hlevel.rel_of_ok hrun)⟩

end Ready

/-- **Every trial starts ready**, whatever the trials before it did. -/
theorem Course.ready {trials : List Trial}
    {result : EStateM.Result MatchError Matcher (Option Outcome)}
    (h : Course statement subject s trials result) (hs : Ready subject base s) :
    ∀ trial ∈ trials, Ready subject base trial.start := by
  have hroot : Seen subject base .root subject subject := ⟨.root subject, .same subject⟩
  have hcorrespondence := Beside.correspondence subject base
  refine h.forall_start hs (fun hu htry => ?_) fun hu hlook => ?_
  · exact hu.kept (hcorrespondence.tryClause hroot _) (Level.evolution.tryClause statement subject _ _)
      htry
  · exact hu.kept (hcorrespondence.stepCandidates hroot _) (Level.evolution.stepCandidates subject _ _)
      hlook

end Matcher

end StructuralMatch

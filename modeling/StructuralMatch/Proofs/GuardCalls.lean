import StructuralMatch.Proofs.BoundNames
import StructuralMatch.Proofs.Trials

/-!
# `Proofs.GuardCalls` — which guards are asked, in which order, and with which bindings

Guards are the only place where bindings can be seen while an evaluation still runs. A guard is called when
a clause is tried that has one and whose pattern matches (`Trial.guardCall?`), and it is given the bindings
that the pattern has made from none.

1. No pattern and no lane asks a guard (`SameGuards.evolution`), so that the guards in the log are those of
   the calls, trial by trial (`Course.guardsAsked`).
2. Each call hands over the bindings of its own clause (`HandedOver`). They have the names of one choice
   of alternatives, and they are those that the clause makes alone, with a matcher that has seen nothing.
3. The guard of a clause that wins is asked last (`Course.last_of_matched`).

`Engine.guards_disciplined` puts this together for an evaluation.
-/

namespace StructuralMatch

/-- Whether the question is for a guard. -/
def Event.isGuard : Event → Bool
  | .guard _ => true
  | _ => false

namespace Matcher

variable {s t : Matcher}

/-! ## Steps that ask no guard -/

/-- The questions for guards so far, in order. -/
def guardsAsked (s : Matcher) : List Event := s.host.log.toList.filter (·.isGuard)

/-- A question is added behind those before if it is for a guard. -/
theorem guardsAsked_record {event : Event} (h : t.host = s.host.record event) :
    t.guardsAsked = s.guardsAsked ++ [event].filter (·.isGuard) := by
  rw [guardsAsked, h, Host.record, Array.toList_push, List.filter_append]
  rfl

/-- The same guards were asked. -/
def SameGuards (s t : Matcher) : Prop := t.guardsAsked = s.guardsAsked

namespace SameGuards

theorem record {event : Event} (hevent : event.isGuard = false) (h : t.host = s.host.record event) :
    SameGuards s t := by
  have hnone : [event].filter (·.isGuard) = [] := by simp [hevent]
  rw [SameGuards, guardsAsked_record h, hnone, List.append_nil]

theorem ask {α : Type} (question : Question α) (hevent : question.event.isGuard = false) (s : Matcher) :
    Leads (fun _ => True) SameGuards (fun _ => SameGuards) (askHost question) s fun _ _ => True :=
  leads_askHost (fun _ _ _ => ⟨trivial, record hevent rfl, trivial⟩) fun _ _ _ => record hevent rfl

theorem look {α : Type} (path : AccessPath) (slot : NodeMemo → Option α)
    (keep : α → NodeMemo → NodeMemo) (question : Question α)
    (hevent : question.event.isGuard = false) (s : Matcher) :
    Leads (fun _ => True) SameGuards (fun _ => SameGuards)
      (observe (askOnce path slot keep question)) s fun _ _ => True :=
  leads_askOnce (fun _ _ _ => ⟨trivial, rfl, trivial⟩)
    (fun _ _ _ _ => ⟨trivial, record hevent rfl, trivial⟩) fun _ _ _ _ => record hevent rfl

/-- What was asked is part of what is observed. -/
theorem of_observer (h : t.toObserver = s.toObserver) : SameGuards s t := by
  have hlog : t.host.log = s.host.log := congrArg (·.host.log) h
  rw [SameGuards, guardsAsked, hlog]
  rfl

theorem passage : ObserverPassage (fun _ => True) SameGuards fun _ => SameGuards where
  refl _ := rfl
  trans hst htu := Eq.trans htu hst
  fails hst htu := Eq.trans htu hst
  unchanged _ hobserver _ := ⟨trivial, of_observer hobserver⟩
  failsUnchanged h hobserver _ := (of_observer hobserver).trans h

/-- **No pattern and no lane asks a guard.** -/
theorem evolution : Evolution (fun _ => True) SameGuards fun _ => SameGuards where
  toPassage := passage.toPassage
  thrown _ _ := rfl
  kindOf _ _ _ := ⟨trivial, rfl, trivial⟩
  elements path _ _ := look path _ _ _ rfl _
  mapping path _ _ := look path _ _ _ rfl _
  components path _ _ := look path _ _ _ rfl _
  declared path _ _ := look path _ _ _ rfl _
  fetch path _ _ _ := look path _ _ _ rfl _
  isInstance _ _ s := ask _ rfl s
  equals _ _ s := ask _ rfl s
  value _ s := ask _ rfl s
  newList _ _ _ := ⟨trivial, rfl, trivial⟩
  newDict _ _ _ := ⟨trivial, rfl, trivial⟩
  bind _ _ _ := passage.modified rfl rfl
  attempt := passage.attempt
  descend := passage.descend

end SameGuards

/-- **Nothing is asked after the guard.** -/
theorem host_judge (index : Nat) (clause : Clause) (guard : GuardRef) (bindings : Bindings Value)
    (s : Matcher) :
    (stateAfter (judge index clause guard bindings s)).host = s.host.record (.guard guard) := by
  rw [judge]
  cases h : (Question.guard guard bindings).answer (s.host.record (.guard guard)) with
  | ok passed =>
    rw [bind_of_ok (askHost_of_answer h)]
    rfl
  | error e =>
    rw [bind_of_error (askHost_of_error h)]
    rfl

/-- Only the clause that was judged can win, and only with the bindings that its guard has seen. -/
theorem outcome_of_judge {index : Nat} {clause : Clause} {guard : GuardRef} {bindings : Bindings Value}
    {outcome : Outcome} (h : judge index clause guard bindings s = .ok (some outcome) t) :
    outcome = .matched index clause.body bindings := by
  obtain ⟨passed, u, -, hrest⟩ := exists_of_bind_ok h
  cases passed with
  | false => cases hrest
  | true =>
    cases hrest
    rfl

end Matcher

/-! ## The calls of guards -/

/-- A guard that is asked for a clause, with the bindings that it is given. -/
structure GuardCall where
  clause : Nat
  guard : GuardRef
  bindings : Bindings Value

/-- **The call of a guard in a trial**: the clause has a guard, and its pattern matches. -/
def Trial.guardCall? (statement : Statement) (subject : Value) (trial : Trial) : Option GuardCall := do
  let clause ← statement.clauses[trial.index]?
  let guard ← clause.guard
  match Matcher.matchPattern clause.pattern subject .root trial.start.cleared with
  | .ok true t => some ⟨trial.index, guard, t.bindings⟩
  | _ => none

/-- The calls of guards in a list of trials. -/
def guardCalls (statement : Statement) (subject : Value) (trials : List Trial) : List GuardCall :=
  trials.filterMap (·.guardCall? statement subject)

theorem guardCalls_cons (statement : Statement) (subject : Value) (trial : Trial)
    (trials : List Trial) :
    guardCalls statement subject (trial :: trials) =
      guardCalls statement subject [trial] ++ guardCalls statement subject trials :=
  List.filterMap_append (l := [trial])

section Calls

variable {statement : Statement} {subject : Value} {trial : Trial} {clause : Clause}

theorem Trial.guardCall?_of_clause (hclause : statement.clauses[trial.index]? = some clause) :
    trial.guardCall? statement subject = clause.guard.bind fun guard =>
      match Matcher.matchPattern clause.pattern subject .root trial.start.cleared with
      | .ok true t => some ⟨trial.index, guard, t.bindings⟩
      | _ => none := by
  rw [guardCall?, hclause]
  rfl

/-- A call is made for the clause of the trial, if it has the guard and its pattern makes the bindings. -/
theorem Trial.guardCall?_eq_some_iff {call : GuardCall} :
    trial.guardCall? statement subject = some call ↔
      ∃ clause t, statement.clauses[trial.index]? = some clause ∧ clause.guard = some call.guard ∧
        Matcher.matchPattern clause.pattern subject .root trial.start.cleared = .ok true t ∧
        call = ⟨trial.index, call.guard, t.bindings⟩ := by
  constructor
  · intro h
    cases hclause : statement.clauses[trial.index]? with
    | none =>
      rw [guardCall?, hclause] at h
      cases h
    | some clause =>
      rw [guardCall?_of_clause hclause] at h
      obtain ⟨guard, hguard, h⟩ := Option.bind_eq_some_iff.mp h
      split at h
      · rename_i t hrun
        cases h
        exact ⟨clause, t, rfl, hguard, hrun, rfl⟩
      · cases h
  · rintro ⟨clause, t, hclause, hguard, hrun, hcall⟩
    rw [guardCall?_of_clause hclause, hguard, hrun, hcall]
    rfl

/-- A pattern that does not match calls no guard. -/
theorem Trial.guardCall?_of_unmatched (hclause : statement.clauses[trial.index]? = some clause)
    (hrun : ∀ t, Matcher.matchPattern clause.pattern subject .root trial.start.cleared ≠ .ok true t) :
    trial.guardCall? statement subject = none := by
  refine Option.eq_none_iff_forall_ne_some.mpr fun call hcall => ?_
  obtain ⟨other, t, hother, -, hmatched, -⟩ := guardCall?_eq_some_iff.mp hcall
  cases hclause.symm.trans hother
  exact hrun t hmatched

/-- Calls are made in the order in which the clauses are reached. -/
theorem sublist_guardCalls (statement : Statement) (subject : Value) (trials : List Trial) :
    ((guardCalls statement subject trials).map (·.clause)).Sublist (trials.map (·.index)) := by
  induction trials with
  | nil => exact List.Sublist.refl []
  | cons trial rest ih =>
    rw [guardCalls, List.map_cons]
    cases hcall : trial.guardCall? statement subject with
    | none =>
      rw [List.filterMap_cons_none hcall]
      exact ih.cons trial.index
    | some call =>
      obtain ⟨-, t, -, -, -, hmade⟩ := Trial.guardCall?_eq_some_iff.mp hcall
      have hindex : call.clause = trial.index := by rw [hmade]
      rw [List.filterMap_cons_some hcall, List.map_cons, hindex]
      exact ih.cons_cons trial.index

namespace Matcher

/-- **A trial asks the guard of its call**, and no other. -/
theorem guardsAsked_tryClause (statement : Statement) (subject : Value) (trial : Trial) :
    (stateAfter (tryClause statement subject trial.index trial.start)).guardsAsked =
      trial.start.guardsAsked ++
        (guardCalls statement subject [trial]).map fun call => .guard call.guard := by
  have hpattern (pattern : Pattern) :=
    SameGuards.evolution.matchPattern pattern subject .root trial.start.cleared
  -- Without a call nothing is asked, since patterns ask no guard.
  have hsilent {t : Matcher} (hnone : trial.guardCall? statement subject = none)
      (hsame : t.guardsAsked = trial.start.guardsAsked) :
      t.guardsAsked = trial.start.guardsAsked ++
        (guardCalls statement subject [trial]).map fun call => .guard call.guard := by
    rw [guardCalls, List.filterMap_cons_none hnone, List.filterMap_nil, List.map_nil, List.append_nil]
    exact hsame
  have htried := tried_tryClause statement subject trial.index trial.start
  generalize tryClause statement subject trial.index trial.start = result at htried ⊢
  cases htried with
  | noClause hclause =>
    refine hsilent ?_ rfl
    rw [Trial.guardCall?, hclause]
    rfl
  | @raised clause e t hclause hrun =>
    refine hsilent (Trial.guardCall?_of_unmatched hclause fun u hu => ?_)
      ((hpattern clause.pattern).of_error trivial hrun)
    cases hrun.symm.trans hu
  | @failed clause t hclause hrun =>
    refine hsilent (Trial.guardCall?_of_unmatched hclause fun u hu => ?_)
      ((hpattern clause.pattern).rel_of_ok hrun)
    cases hrun.symm.trans hu
  | @unguarded clause t hclause hguard hrun =>
    have hsame : t.guardsAsked = trial.start.guardsAsked :=
      (hpattern clause.pattern).rel_of_ok hrun
    refine hsilent (t := t.cleared) ?_ hsame
    rw [Trial.guardCall?_of_clause hclause, hguard]
    rfl
  | @guarded clause guard t hclause hguard hrun =>
    have hcall : trial.guardCall? statement subject = some ⟨trial.index, guard, t.bindings⟩ :=
      Trial.guardCall?_eq_some_iff.mpr ⟨clause, t, hclause, hguard, hrun, rfl⟩
    have hsame : t.guardsAsked = trial.start.guardsAsked :=
      (hpattern clause.pattern).rel_of_ok hrun
    rw [guardsAsked_record (host_judge trial.index clause guard t.bindings t), hsame, guardCalls,
      List.filterMap_cons_some hcall]
    rfl

/-- **The guards that a search asks are those of its calls**, trial by trial. -/
theorem Course.guardsAsked {s : Matcher} {trials : List Trial}
    {result : EStateM.Result MatchError Matcher (Option Outcome)}
    (h : Course statement subject s trials result) :
    (stateAfter result).guardsAsked =
      s.guardsAsked ++ (guardCalls statement subject trials).map fun call => .guard call.guard := by
  induction h with
  | done s => exact (List.append_nil _).symm
  | @won index s t outcome htry =>
    rw [← htry]
    exact guardsAsked_tryClause statement subject ⟨index, s⟩
  | @failed index s t e htry =>
    rw [← htry]
    exact guardsAsked_tryClause statement subject ⟨index, s⟩
  | @lost index s t trials result htry _ ih =>
    have htrial := guardsAsked_tryClause statement subject ⟨index, s⟩
    rw [htry] at htrial
    have htrial : t.guardsAsked = _ := htrial
    rw [ih, guardCalls_cons, List.map_append, htrial, List.append_assoc]
  | @looked step indices s t trials result hlook _ ih =>
    have hsame : t.guardsAsked = s.guardsAsked :=
      (SameGuards.evolution.stepCandidates subject step s).rel_of_ok hlook
    rw [ih, hsame]
  | @blind step s t e hlook =>
    have hsame : t.guardsAsked = s.guardsAsked :=
      (SameGuards.evolution.stepCandidates subject step s).of_error trivial hlook
    exact hsame.trans (List.append_nil _).symm

end Matcher

/-! ## What a guard is given -/

/-- **A trial hands bindings over to its guard.** The pattern of the clause matches and leaves the bindings
    of the call; the next question is for the guard, with these bindings, and it decides the trial. -/
structure HandedOver (statement : Statement) (subject : Value) (base : Matcher) (events : List Event)
    (trial : Trial) (call : GuardCall) (clause : Clause) (t : Matcher) : Prop where
  index : call.clause = trial.index
  tried : statement.clauses[trial.index]? = some clause
  guarded : clause.guard = some call.guard
  /-- The bindings are what the pattern makes from none. -/
  matched : Matcher.matchPattern clause.pattern subject .root trial.start.cleared = .ok true t
  made : t.bindings = call.bindings
  asked : Matcher.tryClause statement subject trial.index trial.start =
    Matcher.judge trial.index clause call.guard call.bindings t
  logged : ∃ earlier later, t.host.log.toList = base.host.log.toList ++ earlier ∧
    events = earlier ++ .guard call.guard :: later
  /-- They have the names of one choice of alternatives, without those of alternatives that failed. -/
  names : call.bindings.slots.map (·.1) ∈ clause.pattern.nameChoices
  /-- A matcher that has seen nothing makes the same bindings, but for the identities of new values. -/
  alone : ∃ u, Matcher.matchPattern clause.pattern subject .root base = .ok true u ∧
    call.bindings.Related (Value.Twin base.host.nextIdentity) u.bindings

namespace Matcher

/-- **Every call of a guard hands the bindings of its clause over**, whatever was tried before. -/
theorem exists_handedOver {base s : Matcher} {events : List Event} {call : GuardCall}
    (hbase : Truthful subject base base) (hempty : base.cleared = base)
    (hready : Ready subject base trial.start)
    (hframe : Frame (endState (tryClause statement subject trial.index) trial.start) s)
    (hevents : s.host.log.toList = base.host.log.toList ++ events)
    (hcall : trial.guardCall? statement subject = some call) :
    ∃ clause t, HandedOver statement subject base events trial call clause t := by
  obtain ⟨clause, t, hclause, hguard, hrun, hcall⟩ := Trial.guardCall?_eq_some_iff.mp hcall
  have hmade : t.bindings = call.bindings := by rw [hcall]
  have hasked : tryClause statement subject trial.index trial.start =
      judge trial.index clause call.guard call.bindings t := by
    rw [tryClause_eq hclause, bind_of_ok hrun, settle_of_guard hguard, hmade]
  have hlogged : ∃ earlier later, t.host.log.toList = base.host.log.toList ++ earlier ∧
      events = earlier ++ .guard call.guard :: later := by
    have hstart : Frame trial.start.cleared t :=
      (Frame.evolution.matchPattern clause.pattern subject .root trial.start.cleared).rel_of_ok hrun
    obtain ⟨earlier, hearlier⟩ := hready.truthful.log.trans hstart.log
    have hend := hframe.log
    rw [endState_eq, hasked, host_judge, Host.record, Array.toList_push] at hend
    obtain ⟨later, hlater⟩ := hend
    have hall : base.host.log.toList ++ events =
        base.host.log.toList ++ (earlier ++ .guard call.guard :: later) := by
      rw [← hevents, ← hlater, ← hearlier, List.append_assoc, List.append_assoc]
      rfl
    exact ⟨earlier, later, hearlier.symm, List.append_cancel_left hall⟩
  have hnames : call.bindings.slots.map (·.1) ∈ clause.pattern.nameChoices := by
    obtain ⟨added, hslots, hchosen⟩ := exists_added_of_match hrun
    have hslots : call.bindings.slots = added := by
      rw [← hmade, hslots]
      rfl
    rwa [hslots]
  have halone : ∃ u, matchPattern clause.pattern subject .root base = .ok true u ∧
      call.bindings.Related (Value.Twin base.host.nextIdentity) u.bindings := by
    obtain ⟨u, halone, hbeside⟩ := hready.matchPattern hbase hrun
    rw [hempty] at halone
    exact ⟨u, halone, hmade ▸ hbeside.bindings⟩
  exact ⟨clause, t, by rw [hcall], hclause, hguard, hrun, hmade, hasked, hlogged, hnames, halone⟩

/-- Only a search that found a match gives one as its answer. -/
theorem exists_of_answer_matched {index : Nat} {body : BodyRef} {bindings : Bindings Value}
    {result : EStateM.Result MatchError Matcher (Option Outcome)}
    (h : answer result = .ok (.matched index body bindings)) :
    ∃ t, result = .ok (some (.matched index body bindings)) t := by
  cases result with
  | error e t => cases h
  | ok found t =>
    cases found with
    | none => cases h
    | some outcome =>
      cases h
      exact ⟨t, rfl⟩

/-- **The guard of a clause that wins is asked last**, with the bindings that the clause wins with. -/
theorem Course.last_of_matched {s t : Matcher} {trials : List Trial} {index : Nat} {body : BodyRef}
    {bindings : Bindings Value} {guard : GuardRef}
    (h : Course statement subject s trials (.ok (some (.matched index body bindings)) t))
    (hclause : statement.clauses[index]? = some clause) (hguard : clause.guard = some guard) :
    t.host.log.toList.getLast? = some (.guard guard) ∧
      (guardCalls statement subject trials).getLast? = some ⟨index, guard, bindings⟩ := by
  obtain ⟨before, trial, rfl, hwins⟩ := h.exists_last_of_won
  have htried := tried_tryClause statement subject trial.index trial.start
  generalize hresult : tryClause statement subject trial.index trial.start = result at htried
  rw [hwins] at hresult
  cases htried with
  | noClause | raised | failed => cases hresult
  | unguarded hother hnone =>
    cases hresult
    cases hclause.symm.trans hother
    cases hguard.symm.trans hnone
  | @guarded other guard' u hother hguard' hrun =>
    cases outcome_of_judge hresult.symm
    cases hclause.symm.trans hother
    cases hguard.symm.trans hguard'
    have hhost := host_judge trial.index clause guard u.bindings u
    rw [← hresult] at hhost
    have hhost : t.host = u.host.record (.guard guard) := hhost
    refine ⟨by rw [hhost, Host.record, Array.toList_push, List.getLast?_concat], ?_⟩
    have hcall : trial.guardCall? statement subject = some ⟨trial.index, guard, u.bindings⟩ :=
      Trial.guardCall?_eq_some_iff.mpr ⟨clause, u, hclause, hguard, hrun, rfl⟩
    rw [guardCalls, List.filterMap_append, List.filterMap_cons, hcall]
    exact List.getLast?_concat

end Matcher

end Calls

/-! ## Evaluations -/

/-- **The discipline of guards** in an evaluation that made these trials, asked these questions and gave
    this result. -/
structure GuardDiscipline (statement : Statement) (subject : Value) (base : Matcher)
    (trials : List Trial) (events : List Event) (result : Except MatchError Outcome) : Prop where
  /-- The trials lead from `base` to the result, and the questions are those asked on the way. -/
  reached : ∃ search, Matcher.Course statement subject base trials search ∧
    Matcher.answer search = result ∧
    (Matcher.stateAfter search).host.log.toList = base.host.log.toList ++ events
  /-- Guards are called in the order of their clauses, for each clause at most once. -/
  ordered : ((guardCalls statement subject trials).map (·.clause)).Pairwise (· < ·)
  /-- The guards in the log are those of the clauses that were reached and whose pattern matched. -/
  logged : events.filter (·.isGuard) =
    (guardCalls statement subject trials).map fun call => .guard call.guard
  /-- Each of them is given the bindings of its own clause. -/
  handed : ∀ trial ∈ trials, ∀ call, trial.guardCall? statement subject = some call →
    ∃ clause t, HandedOver statement subject base events trial call clause t
  /-- The guard of the clause that wins comes last, and it has seen the bindings of the outcome. -/
  last : ∀ {index body bindings clause guard}, result = .ok (.matched index body bindings) →
    statement.clauses[index]? = some clause → clause.guard = some guard →
    events.getLast? = some (.guard guard) ∧
      (guardCalls statement subject trials).getLast? = some ⟨index, guard, bindings⟩

/-- **Every search keeps the discipline of guards** that starts from a matcher without bindings and with a
    true memory, and reaches the clauses in order. -/
theorem Matcher.Course.disciplined {statement : Statement} {subject : Value} {base : Matcher}
    {trials : List Trial} {events : List Event}
    {result : EStateM.Result MatchError Matcher (Option Outcome)}
    (h : Course statement subject base trials result) (hbase : Truthful subject base base)
    (hempty : base.cleared = base) (hincreasing : (trials.map (·.index)).Pairwise (· < ·))
    (hevents : (stateAfter result).host.log.toList = base.host.log.toList ++ events) :
    GuardDiscipline statement subject base trials events (answer result) := by
  have hready := h.ready ⟨hbase, .refl base⟩
  have hlogged : events.filter (·.isGuard) =
      (guardCalls statement subject trials).map fun call => .guard call.guard := by
    have hasked := h.guardsAsked
    rw [Matcher.guardsAsked, hevents, List.filter_append] at hasked
    exact List.append_cancel_left hasked
  refine {
    reached := ⟨result, h, rfl, hevents⟩
    ordered := hincreasing.sublist (sublist_guardCalls statement subject trials)
    logged := hlogged
    handed := ?_
    last := ?_ }
  · intro trial htrial call hcall
    exact exists_handedOver hbase hempty (hready trial htrial) (h.frame_of_mem trial htrial) hevents hcall
  · intro index body bindings clause guard hanswer hclause hguard
    obtain ⟨t, rfl⟩ := exists_of_answer_matched hanswer
    obtain ⟨hguardLast, hcallLast⟩ := h.last_of_matched hclause hguard
    refine ⟨?_, hcallLast⟩
    -- The log may have ended with a guard before, but a call was made, so that there are new questions.
    have hne : events ≠ [] := by
      rintro rfl
      have hnone : guardCalls statement subject trials = [] := List.map_eq_nil_iff.mp hlogged.symm
      rw [hnone] at hcallLast
      cases hcallLast
    have hlast : t.host.log.toList = base.host.log.toList ++ events := hevents
    rw [hlast, List.getLast?_append_of_ne_nil _ hne] at hguardLast
    exact hguardLast

/-- **Guards are asked in order, each for a clause that was reached and whose pattern matched, and with the
    bindings of this clause only.** This holds of every evaluation of a compiled statement, by either
    strategy and also if it ends in an error. -/
theorem Engine.guards_disciplined (engine : Engine) (strategy : Strategy) (host : Host)
    (statement : Statement) (subject : Value) :
    let compiled := engine.compile statement
    let evaluation := engine.matchValueWith strategy host compiled subject
    ∃ events, evaluation.host.log.toList = host.log.toList ++ events ∧
      GuardDiscipline statement subject (engine.matcher host)
        (compiled.trials strategy subject (engine.matcher host)) events evaluation.result := by
  intro compiled evaluation
  have hcourse : Matcher.Course statement subject (engine.matcher host)
      (compiled.trials strategy subject (engine.matcher host)) _ :=
    Matcher.course_runSteps statement subject (compiled.steps strategy) (engine.matcher host)
  have hincreasing := List.pairwise_lt_range.sublist
    (engine.sublist_trials statement strategy subject (engine.matcher host))
  have hfresh := Matcher.Truthful.of_fresh subject host engine.kinds engine.config.maxDepth
  have hsearch : evaluation = _ := engine.matchValueWith_eq strategy host compiled subject
  obtain ⟨events, hevents⟩ := hcourse.frame.log
  rw [hsearch]
  exact ⟨events, hevents.symm, hcourse.disciplined hfresh rfl hincreasing hevents.symm⟩

end StructuralMatch

import StructuralMatch.Proofs.Evaluation
import StructuralMatch.Proofs.KeyTree
import StructuralMatch.Proofs.LaneEntry
import StructuralMatch.Proofs.LengthDispatch
import StructuralMatch.Proofs.PlanShape

/-!
# `Proofs.LaneRefinement` — a compiled plan does what trying every clause does

A lane looks at the subject and leaves out the clauses that cannot match it. Compared with trying all of
them nothing is lost and nothing is asked differently:

1. The first clause of a lane would begin with the same look, so that the lane may look first
   (`tryClause_of_look`). If the look fails, so does the first clause, with the same error.
2. After the look, what it found stays in memory (`Looks.again`). A clause that is left out would look
   again, without asking, and fail (`tryClause_of_excluded`).

Runs are compared by `SameEnd`: the answer and the state are the same, but for bindings that the next
clause drops anyway. `tryEach_lane` compares one lane, `tryEach_runSteps` a whole plan by induction on its
steps. The main result is `Engine.run_compile`.
-/

namespace StructuralMatch

namespace Matcher

variable {α β ρ : Type}

/-! ## Comparing ends -/

/-- **Two computations end alike**: with one answer, in states that differ at most in their bindings, or
    with one error after the same questions. -/
inductive SameEnd : EStateM.Result MatchError Matcher α → EStateM.Result MatchError Matcher α → Prop
  | ok {a : α} {s t : Matcher} : s.cleared = t.cleared → SameEnd (.ok a s) (.ok a t)
  | error {e : MatchError} {s t : Matcher} : s.host = t.host → s.kinds = t.kinds →
      SameEnd (.error e s) (.error e t)

theorem SameEnd.refl (r : EStateM.Result MatchError Matcher α) : SameEnd r r := by
  cases r with
  | ok a s => exact .ok rfl
  | error e s => exact .error rfl rfl

/-- Where one computation answers, the other gives the same answer. -/
theorem SameEnd.of_ok {r : EStateM.Result MatchError Matcher α} {a : α} {s : Matcher}
    (h : SameEnd (.ok a s) r) : ∃ t : Matcher, r = .ok a t ∧ s.cleared = t.cleared := by
  cases h with
  | ok hcleared => exact ⟨_, rfl, hcleared⟩

/-- Where one computation fails, the other fails with the same error. -/
theorem SameEnd.of_error {r : EStateM.Result MatchError Matcher α} {e : MatchError} {s : Matcher}
    (h : SameEnd (.error e s) r) :
    ∃ t : Matcher, r = .error e t ∧ s.host = t.host ∧ s.kinds = t.kinds := by
  cases h with
  | error hhost hkinds => exact ⟨_, rfl, hhost, hkinds⟩

/-- Ends stay alike if what comes next ends alike. -/
theorem SameEnd.bind {x y : MatchM α} {f g : α → MatchM β} {s t : Matcher} (h : SameEnd (x s) (y t))
    (hnext : ∀ a u v, x s = .ok a u → y t = .ok a v → u.cleared = v.cleared →
      SameEnd (f a u) (g a v)) : SameEnd ((x >>= f) s) ((y >>= g) t) := by
  cases hx : x s with
  | ok a u =>
    rw [hx] at h
    obtain ⟨v, hy, hcleared⟩ := h.of_ok
    rw [bind_of_ok hx, bind_of_ok hy]
    exact hnext a u v hx hy hcleared
  | error e u =>
    rw [hx] at h
    obtain ⟨v, hy, hhost, hkinds⟩ := h.of_error
    rw [bind_of_error hx, bind_of_error hy]
    exact .error hhost hkinds

/-- States that differ at most in their bindings are at the same depth. -/
theorem eq_place_of_cleared {s t : Matcher} (h : s.cleared = t.cleared) :
    t = s.place t.bindings s.depth := by
  obtain ⟨_, _, _, _, _⟩ := s
  obtain ⟨_, _, _, _, _⟩ := t
  cases h
  rfl

/-- A look does not depend on the bindings. -/
theorem Looks.sameEnd {look : MatchM α} (hlook : Looks look) {s t : Matcher}
    (h : s.cleared = t.cleared) : SameEnd (look s) (look t) := by
  rw [eq_place_of_cleared h, hlook.indifferent]
  cases hrun : look s with
  | ok a u =>
    refine .ok ?_
    rw [← (hlook.level hrun).depth]
    rfl
  | error e u => exact .error rfl rfl

/-! ## One clause -/

section Clause

variable {statement : Statement} {subject : Value} {index : Nat} {clause : Clause}

/-- The bindings of the clause before do not matter. -/
theorem tryClause_sameEnd (statement : Statement) (subject : Value) (index : Nat) {s t : Matcher}
    (h : s.cleared = t.cleared) :
    SameEnd (tryClause statement subject index s) (tryClause statement subject index t) := by
  cases hclause : statement.clauses[index]? with
  | none =>
    rw [tryClause_of_noClause hclause, tryClause_of_noClause hclause]
    exact .ok h
  | some clause =>
    rw [tryClause_eq hclause, tryClause_eq hclause, h]
    exact .refl _

/-- Two descents that meet. -/
theorem descend_congr {inner : MatchM Bool} {s t : Matcher} (hs : s.limitReached? = none)
    (ht : t.limitReached? = none)
    (h : inner { s with depth := s.depth + 1 } = inner { t with depth := t.depth + 1 }) :
    descend inner s = descend inner t := by
  simp only [descend, hs, ht, h]

/-- **The lane may look first.** A clause that opens with the look does the same before and after it. -/
theorem tryClause_of_look {look : MatchM (Option α)} (hlook : Looks look) {admits : α → Bool}
    (hclause : statement.clauses[index]? = some clause)
    (hopens : Opens clause.pattern subject look admits) {s t : Matcher} {found : Option α}
    (hs : s.limitReached? = none) (hfound : look s = .ok found t) :
    tryClause statement subject index s = tryClause statement subject index t := by
  obtain ⟨rest, hpattern, -, -⟩ := hopens
  have hlevel := hlook.level hfound
  have ht : t.limitReached? = none := hlevel.limitReached?.trans hs
  have hbefore : look (s.place .empty (s.depth + 1)) = .ok found (t.place .empty (s.depth + 1)) := by
    rw [hlook.indifferent, hfound]
    rfl
  have hafter : look (t.place .empty (t.depth + 1)) = .ok found (t.place .empty (s.depth + 1)) := by
    rw [hlook.indifferent, hlook.again hfound (.refl t), hlevel.depth]
    rfl
  rw [tryClause_eq hclause, tryClause_eq hclause, hpattern]
  exact bind_eq_bind (descend_congr hs ht ((bind_of_ok hbefore).trans (bind_of_ok hafter).symm))

/-- A clause that opens with a look that fails, fails like the look. -/
theorem tryClause_of_failed_look {look : MatchM (Option α)} (hlook : Looks look) {admits : α → Bool}
    (hclause : statement.clauses[index]? = some clause)
    (hopens : Opens clause.pattern subject look admits) {s t : Matcher} {e : MatchError}
    (hs : s.limitReached? = none) (hfails : look s = .error e t) :
    ∃ u : Matcher, tryClause statement subject index s = .error e u ∧ u.host = t.host ∧
      u.kinds = t.kinds := by
  obtain ⟨rest, hpattern, -, -⟩ := hopens
  have hinner : look (s.place .empty (s.depth + 1)) = .error e (t.place .empty (s.depth + 1)) := by
    rw [hlook.indifferent, hfails]
    rfl
  have hcleared : s.cleared.limitReached? = none := hs
  have hdescend : descend (look >>= rest) s.cleared = .error e (t.place .empty s.depth) :=
    descend_of_error hcleared (bind_of_error hinner)
  refine ⟨t.place .empty s.depth, ?_, rfl, rfl⟩
  rw [tryClause_eq hclause, hpattern, bind_of_error hdescend]

/-- **An excluded clause does nothing.** What the look found is in memory. -/
theorem tryClause_of_excluded {look : MatchM (Option α)} (hlook : Looks look) {admits : α → Bool}
    (hclause : statement.clauses[index]? = some clause)
    (hopens : Opens clause.pattern subject look admits) {s : Matcher} {found : Option α}
    (hs : s.limitReached? = none) (hfound : look s = .ok found s)
    (hexcluded : ∀ a, found = some a → admits a = false) :
    tryClause statement subject index s = .ok none s.cleared := by
  obtain ⟨rest, hpattern, hnone, hsome⟩ := hopens
  have hrest : rest found = pure false := by
    cases found with
    | none => exact hnone
    | some a => exact hsome a (hexcluded a rfl)
  have hinner : look (s.place .empty (s.depth + 1)) = .ok found (s.place .empty (s.depth + 1)) := by
    rw [hlook.indifferent, hfound]
    rfl
  have hcleared : s.cleared.limitReached? = none := hs
  have hrun : (look >>= rest) (s.place .empty (s.depth + 1)) =
      .ok false (s.place .empty (s.depth + 1)) := by
    rw [bind_of_ok hinner, hrest]
    rfl
  have hdescend : descend (look >>= rest) s.cleared = .ok false s.cleared :=
    descend_of_ok hcleared hrun
  rw [tryClause_eq hclause, hpattern, bind_of_ok hdescend]
  rfl

end Clause

/-! ## One lane -/

section Lane

variable {statement : Statement} {subject : Value} {look : MatchM (Option α)}
  {rows : List (Nat × ρ)} {admits : α → ρ → Bool}

/-- The clauses that a lane offers for what its look found. -/
def offered (rows : List (Nat × ρ)) (admits : α → ρ → Bool) : Option α → List Nat
  | none => []
  | some found => (rows.filter fun row => admits found row.2).map (·.1)

/-- Every row stands for a clause that opens with the look of the lane. -/
def RowsOpen (statement : Statement) (subject : Value) (look : MatchM (Option α))
    (rows : List (Nat × ρ)) (admits : α → ρ → Bool) : Prop :=
  ∀ row ∈ rows, ∃ clause, statement.clauses[row.1]? = some clause ∧
    Opens clause.pattern subject look (admits · row.2)

/-- Rows that hold the roles of their clauses stand for clauses that open with the look. -/
theorem rowsOpen_of_roles {role : ρ → LaneRole}
    (hroles : ∀ row ∈ rows, (statement.clauses.map (·.laneRole))[row.1]? = some (role row.2))
    (hopens : ∀ {clause : Clause} {r}, clause.laneRole = role r →
      Opens clause.pattern subject look (admits · r)) :
    RowsOpen statement subject look rows admits := by
  intro row hrow
  obtain ⟨clause, hclause, hrole⟩ := Statement.exists_clause_of_role (hroles row hrow)
  exact ⟨clause, hclause, hopens hrole⟩

/-- **After the look** the clauses of a lane do what the offered ones do: the others are passed over. -/
theorem tryEach_offered (hlook : Looks look) (hrows : RowsOpen statement subject look rows admits)
    {found : Option α} {s t : Matcher} (hst : s.cleared = t.cleared) (hs : s.limitReached? = none)
    (hfound : look s = .ok found s) :
    SameEnd (tryEach statement subject (rows.map (·.1)) s)
      (tryEach statement subject (offered rows admits found) t) := by
  induction rows generalizing s t with
  | nil => cases found <;> exact .ok hst
  | cons row rows ih =>
    obtain ⟨⟨clause, hclause, hopens⟩, hrest⟩ := List.forall_mem_cons.mp hrows
    rw [List.map_cons, tryEach]
    -- Either both sides try the clause, or only the left one does and the clause fails.
    by_cases hoffered : ∃ a, found = some a ∧ admits a row.2 = true
    · obtain ⟨a, rfl, hadmits⟩ := hoffered
      rw [offered, List.filter_cons, if_pos hadmits, List.map_cons, tryEach]
      refine (tryClause_sameEnd statement subject row.1 hst).bind fun outcome u v hu _ huv => ?_
      cases outcome with
      | some outcome => exact .ok huv
      | none =>
        have hlevel := (Level.evolution.tryClause statement subject row.1 s).rel_of_ok hu
        have hmemory := (Remembers.evolution.tryClause statement subject row.1 s).rel_of_ok hu
        exact ih hrest huv (hlevel.limitReached?.trans hs) (hlook.again hfound hmemory)
    · have hexcluded : ∀ a, found = some a → admits a row.2 = false := fun a ha =>
        Bool.not_eq_true _ ▸ fun hadmits => hoffered ⟨a, ha, hadmits⟩
      have hskip : offered (row :: rows) admits found = offered rows admits found := by
        cases found with
        | none => rfl
        | some a =>
          rw [offered, List.filter_cons, if_neg (by rw [hexcluded a rfl]; exact Bool.false_ne_true)]
          rfl
      have hcleared : look s.cleared = .ok found s.cleared := by
        have := hlook.indifferent s .empty s.depth
        rwa [hfound] at this
      rw [hskip, bind_of_ok (tryClause_of_excluded hlook hclause hopens hs hfound hexcluded)]
      exact ih hrest hst hs hcleared

/-- **A lane does what its clauses do**, tried one after the other. -/
theorem tryEach_lane (hlook : Looks look) (hne : rows ≠ [])
    (hrows : RowsOpen statement subject look rows admits) {s t : Matcher}
    (hst : s.cleared = t.cleared) (hs : s.limitReached? = none) :
    SameEnd (tryEach statement subject (rows.map (·.1)) s)
      ((look >>= fun found => tryEach statement subject (offered rows admits found)) t) := by
  obtain ⟨row, rest, rfl⟩ := List.exists_cons_of_ne_nil hne
  obtain ⟨clause, hclause, hopens⟩ := hrows row List.mem_cons_self
  have hlooks := hlook.sameEnd hst
  cases hfound : look s with
  | ok found u =>
    rw [hfound] at hlooks
    obtain ⟨v, ht, huv⟩ := hlooks.of_ok
    -- The first clause looks, so that it may as well be tried after a look.
    have hfirst : tryEach statement subject ((row :: rest).map (·.1)) s =
        tryEach statement subject ((row :: rest).map (·.1)) u := by
      rw [List.map_cons, tryEach]
      exact bind_eq_bind (tryClause_of_look hlook hclause hopens hs hfound)
    rw [bind_of_ok ht, hfirst]
    exact tryEach_offered hlook hrows huv ((hlook.level hfound).limitReached?.trans hs)
      (hlook.again hfound (.refl u))
  | error e u =>
    rw [hfound] at hlooks
    obtain ⟨v, ht, hhost, hkinds⟩ := hlooks.of_error
    obtain ⟨w, hrun, hwhost, hwkinds⟩ := tryClause_of_failed_look hlook hclause hopens hs hfound
    rw [bind_of_error ht, List.map_cons, tryEach, bind_of_error hrun]
    exact .error (hwhost.trans hhost) (hwkinds.trans hkinds)

end Lane

/-- A sequence lane offers the clauses that admit the number of elements. -/
theorem stepCandidates_sequenceLane (subject : Value) (rows : List (Nat × LengthConstraint)) :
    stepCandidates subject (.sequenceLane (rows.map (·.1)) (.ofRows rows)) =
      lookElements subject .root >>= fun found =>
        pure (offered rows (fun elements constraint => constraint.admits elements.length) found) := by
  rw [stepCandidates, lookElements, bind_assoc]
  refine bind_congr fun kind => ?_
  split
  · rw [bind_assoc]
    refine bind_congr fun elements => ?_
    rw [pure_bind, LengthDispatch.candidates_ofRows]
    rfl
  · rfl

/-- A mapping lane offers the clauses whose tests hold of the view. -/
theorem stepCandidates_mappingLane (subject : Value) (rows : List (Nat × List KeyTest)) :
    stepCandidates subject (.mappingLane (rows.map (·.1)) (.ofRows rows)) =
      lookEntries subject .root >>= fun found =>
        pure (offered rows (fun view tests => tests.all (·.holds view)) found) := by
  rw [stepCandidates, lookEntries, bind_assoc]
  refine bind_congr fun kind => ?_
  split
  · rw [bind_assoc]
    refine bind_congr fun view => ?_
    rw [pure_bind, KeyTree.candidates_ofRows]
    rfl
  · rfl

/-! ## Plans -/

theorem tryEach_append (statement : Statement) (subject : Value) (first rest : List Nat) :
    tryEach statement subject (first ++ rest) = tryEach statement subject first >>= fun
      | some outcome => pure (some outcome)
      | none => tryEach statement subject rest := by
  induction first with
  | nil => rfl
  | cons index first ih =>
    rw [List.cons_append, tryEach, tryEach, bind_assoc]
    refine bind_congr fun outcome => ?_
    cases outcome with
    | some outcome => rfl
    | none => exact ih

/-- **A step of a plan does what its clauses do.** -/
theorem tryEach_step {statement : Statement} (subject : Value) {step : PlanStep}
    (hfits : step.Fits (statement.clauses.map (·.laneRole))) {s t : Matcher}
    (hst : s.cleared = t.cleared) (hs : s.limitReached? = none) :
    SameEnd (tryEach statement subject step.covered s)
      ((stepCandidates subject step >>= tryEach statement subject) t) := by
  cases hfits with
  | clause index =>
    change SameEnd (tryEach statement subject [index] s) (tryEach statement subject [index] t)
    rw [tryEach]
    refine (tryClause_sameEnd statement subject index hst).bind fun outcome u v _ _ huv => ?_
    cases outcome <;> exact .ok huv
  | sequenceLane rows hne hroles =>
    rw [stepCandidates_sequenceLane, bind_assoc]
    simp only [pure_bind]
    exact tryEach_lane (looks_lookElements subject .root) hne
      (rowsOpen_of_roles hroles fun hrole =>
        opens_sequence (Clause.ofPattern?_of_laneRole hrole) subject) hst hs
  | mappingLane rows hne hroles =>
    rw [stepCandidates_mappingLane, bind_assoc]
    simp only [pure_bind]
    exact tryEach_lane (looks_lookEntries subject .root) hne
      (rowsOpen_of_roles hroles fun hrole =>
        opens_mapping (Clause.keyTests?_of_laneRole hrole) subject) hst hs

/-- **The steps of a plan do what the clauses do that they stand for.** -/
theorem tryEach_runSteps {statement : Statement} (subject : Value) {steps : List PlanStep}
    (hfits : ∀ step ∈ steps, step.Fits (statement.clauses.map (·.laneRole))) {s t : Matcher}
    (hst : s.cleared = t.cleared) (hs : s.limitReached? = none) :
    SameEnd (tryEach statement subject (steps.flatMap PlanStep.covered) s)
      (runSteps statement subject steps t) := by
  induction steps generalizing s t with
  | nil => exact .ok hst
  | cons step steps ih =>
    obtain ⟨hstep, hsteps⟩ := List.forall_mem_cons.mp hfits
    rw [List.flatMap_cons, tryEach_append, runSteps, ← bind_assoc]
    refine (tryEach_step subject hstep hst hs).bind fun outcome u v hu _ huv => ?_
    cases outcome with
    | some outcome => exact .ok huv
    | none =>
      have hlevel := (Level.evolution.tryEach statement subject step.covered s).rel_of_ok hu
      exact ih hsteps huv (hlevel.limitReached?.trans hs)

/-- A new matcher has not reached its limit, since a limit of zero stands for none. -/
theorem limitReached?_ofHost (host : Host) (kinds : KindCache) (maxDepth : Option Nat) :
    (ofHost host kinds maxDepth).limitReached? = none := by
  cases maxDepth with
  | none => rfl
  | some limit =>
    simp only [limitReached?, ofHost, Option.filter_some]
    split
    · rename_i hpos
      have hpos : 0 < limit := of_decide_eq_true hpos
      simp only [Option.filter_some, Nat.not_le.mpr hpos, decide_false, Bool.false_eq_true, if_false]
    · rfl

/-- **Following the compiled plan ends like trying every clause.** -/
theorem runInOrder_runPlan (statement : Statement) (limits : LaneLimits) (subject : Value)
    {s : Matcher} (hs : s.limitReached? = none) :
    SameEnd (runInOrder statement subject s)
      (runPlan statement (statement.compile limits) subject s) := by
  unfold runInOrder runPlan
  rw [← statement.covered_compile limits]
  exact (tryEach_runSteps subject (statement.fits_compile limits) rfl hs).bind
    fun _ _ _ _ _ huv => .ok huv

end Matcher

namespace Engine

/-- Computations that end alike are one evaluation. -/
theorem run_congr {α : Type} {x y : MatchM α} (engine : Engine) (host : Host) (maxDepth : Option Nat)
    (h : Matcher.SameEnd (x (.ofHost host engine.kinds maxDepth))
      (y (.ofHost host engine.kinds maxDepth))) :
    engine.run host maxDepth x = engine.run host maxDepth y := by
  unfold run
  cases hx : x (.ofHost host engine.kinds maxDepth) with
  | ok a s =>
    rw [hx] at h
    obtain ⟨t, hy, hcleared⟩ := h.of_ok
    have hhost : s.host = t.host := by
      show s.cleared.host = t.cleared.host
      rw [hcleared]
    have hkinds : s.kinds = t.kinds := by
      show s.cleared.kinds = t.cleared.kinds
      rw [hcleared]
    simp only [hy, hhost, hkinds]
  | error e s =>
    rw [hx] at h
    obtain ⟨t, hy, hhost, hkinds⟩ := h.of_error
    simp only [hy, hhost, hkinds]

/-- **A compiled plan refines trying every clause.** From any host and with any limits the two give one
    evaluation: the same result, down to the identities of new values, and the same host after it, to
    whose log both have appended the same questions. -/
theorem run_compile (engine : Engine) (host : Host) (maxDepth : Option Nat) (statement : Statement)
    (limits : LaneLimits) (subject : Value) :
    engine.run host maxDepth (Matcher.runPlan statement (statement.compile limits) subject) =
        engine.run host maxDepth (Matcher.runInOrder statement subject) ∧
      ∃ events, (engine.run host maxDepth (Matcher.runInOrder statement subject)).host.log.toList =
        host.log.toList ++ events := by
  refine ⟨(engine.run_congr host maxDepth ?_).symm, ?_⟩
  · exact Matcher.runInOrder_runPlan statement limits subject
      (Matcher.limitReached?_ofHost host engine.kinds maxDepth)
  · rw [engine.host_run]
    have hframe := (Matcher.Frame.evolution.runInOrder statement subject
      (.ofHost host engine.kinds maxDepth)).endState trivial (fun _ _ h => h) fun _ _ h => h
    obtain ⟨events, hevents⟩ := hframe.log
    exact ⟨events, hevents.symm⟩

end Engine

end StructuralMatch

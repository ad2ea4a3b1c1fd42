import StructuralMatch.Plan.Compile

/-!
# `Proofs.PlanShape` — the steps of a plan and the clauses they stand for

The steps of a compiled plan stand for the clauses of the statement, each once and in order
(`Statement.covered_compile`). A lane stands for at least one clause, and its table or tree is made from
the constraints or tests of its clauses (`Statement.fits_compile`). It is no shorter than the limit
(`Statement.minLaneLength_le_of_mem_compile`). All this is shown first for the runs of neighbouring clauses
and then for the steps that a run is cut into.
-/

namespace StructuralMatch

/-- The clauses that a step stands for. -/
def PlanStep.covered : PlanStep → List Nat
  | .clause index => [index]
  | .sequenceLane clauses _ => clauses
  | .mappingLane clauses _ => clauses

/-- **A step fits the roles of the clauses**: a lane has a row for each of its clauses, with what the role
    of the clause needs, and at least one. -/
inductive PlanStep.Fits (roles : List LaneRole) : PlanStep → Prop
  | clause (index : Nat) : PlanStep.Fits roles (.clause index)
  | sequenceLane (rows : List (Nat × LengthConstraint)) : rows ≠ [] →
      (∀ row ∈ rows, roles[row.1]? = some (.sequence row.2)) →
      PlanStep.Fits roles (.sequenceLane (rows.map (·.1)) (.ofRows rows))
  | mappingLane (rows : List (Nat × List KeyTest)) : rows ≠ [] →
      (∀ row ∈ rows, roles[row.1]? = some (.mapping row.2)) →
      PlanStep.Fits roles (.mappingLane (rows.map (·.1)) (.ofRows rows))

/-! ## Roles -/

namespace Clause

variable {clause : Clause}

/-- A clause of a sequence lane has a sequence pattern with the constraint of its row. -/
theorem ofPattern?_of_laneRole {constraint : LengthConstraint}
    (h : clause.laneRole = .sequence constraint) :
    LengthConstraint.ofPattern? clause.pattern = some constraint := by
  unfold laneRole at h
  split at h
  · split at h
    · rename_i hpattern
      cases h
      exact hpattern
    · cases h
    · cases h
  · cases h

/-- A clause of a mapping lane has a mapping pattern with the tests of its row. -/
theorem keyTests?_of_laneRole {tests : List KeyTest} (h : clause.laneRole = .mapping tests) :
    clause.pattern.keyTests? = some tests := by
  unfold laneRole at h
  split at h
  · split at h
    · cases h
    · rename_i _ htests
      cases h
      exact htests
    · cases h
  · cases h

/-- A clause with a structural problem joins no lane. -/
theorem laneRole_of_structuralProblems (h : clause.structuralProblems ≠ []) : clause.laneRole = .alone := by
  unfold laneRole
  rw [if_neg]
  rwa [List.isEmpty_iff]

end Clause

/-! ## Runs -/

namespace LaneRun

/-- The clauses of a run. -/
def covered : LaneRun → List Nat
  | .alone index => [index]
  | .sequence rows => rows.map (·.1)
  | .mapping rows => rows.map (·.1)

/-- A run fits the roles of the clauses. -/
def Fits (roles : List LaneRole) : LaneRun → Prop
  | .alone _ => True
  | .sequence rows => rows ≠ [] ∧ ∀ row ∈ rows, roles[row.1]? = some (.sequence row.2)
  | .mapping rows => rows ≠ [] ∧ ∀ row ∈ rows, roles[row.1]? = some (.mapping row.2)

theorem covered_cons (index : Nat) (role : LaneRole) (runs : List LaneRun) :
    (cons index role runs).flatMap covered = index :: runs.flatMap covered := by
  unfold cons
  split <;> rfl

theorem covered_ofRoles (index : Nat) (roles : List LaneRole) :
    (ofRoles index roles).flatMap covered = List.range' index roles.length := by
  induction roles generalizing index with
  | nil => rfl
  | cons role roles ih => rw [ofRoles, covered_cons, ih, List.length_cons, List.range'_succ]

theorem fits_cons {roles : List LaneRole} {index : Nat} {role : LaneRole} {runs : List LaneRun}
    (hrole : roles[index]? = some role) (hruns : ∀ run ∈ runs, run.Fits roles) :
    ∀ run ∈ cons index role runs, run.Fits roles := by
  unfold cons
  split
  · obtain ⟨hfirst, hrest⟩ := List.forall_mem_cons.mp hruns
    exact List.forall_mem_cons.mpr
      ⟨⟨List.cons_ne_nil _ _, List.forall_mem_cons.mpr ⟨hrole, hfirst.2⟩⟩, hrest⟩
  · exact List.forall_mem_cons.mpr ⟨⟨List.cons_ne_nil _ _, by simpa using hrole⟩, hruns⟩
  · obtain ⟨hfirst, hrest⟩ := List.forall_mem_cons.mp hruns
    exact List.forall_mem_cons.mpr
      ⟨⟨List.cons_ne_nil _ _, List.forall_mem_cons.mpr ⟨hrole, hfirst.2⟩⟩, hrest⟩
  · exact List.forall_mem_cons.mpr ⟨⟨List.cons_ne_nil _ _, by simpa using hrole⟩, hruns⟩
  · exact List.forall_mem_cons.mpr ⟨trivial, hruns⟩

theorem fits_ofRoles (before roles : List LaneRole) :
    ∀ run ∈ ofRoles before.length roles, run.Fits (before ++ roles) := by
  induction roles generalizing before with
  | nil =>
    intro run hrun
    cases hrun
  | cons role roles ih =>
    rw [ofRoles]
    refine fits_cons (by simp) ?_
    have := ih (before ++ [role])
    rwa [List.length_append, List.length_singleton, List.append_assoc] at this

end LaneRun

/-! ## Steps -/

/-- Cutting rows into chunks loses none and changes no order. -/
theorem flatten_cutByBudget (budget : Nat) (rows chunk : List (Nat × List KeyTest))
    (known : List KeyTest) : (cutByBudget budget chunk known rows).flatten = chunk ++ rows := by
  induction rows generalizing chunk known with
  | nil => cases chunk <;> simp [cutByBudget]
  | cons row rows ih =>
    rw [cutByBudget]
    split
    · rw [List.flatten_cons, ih, List.singleton_append]
    · rw [ih, List.append_assoc, List.singleton_append]

theorem ne_nil_of_mem_cutByBudget {budget : Nat} {rows chunk found : List (Nat × List KeyTest)}
    {known : List KeyTest} (h : found ∈ cutByBudget budget chunk known rows) : found ≠ [] := by
  induction rows generalizing chunk known with
  | nil =>
    rw [cutByBudget] at h
    split at h
    · cases h
    · rename_i hchunk
      rw [List.mem_singleton.mp h]
      simpa using hchunk
  | cons row rows ih =>
    rw [cutByBudget] at h
    split at h
    · rename_i hcut
      rcases List.mem_cons.mp h with rfl | h
      · intro hnil
        simp [hnil] at hcut
      · exact ih h
    · exact ih h

theorem covered_singleSteps {α : Type} (rows : List (Nat × α)) :
    (singleSteps rows).flatMap PlanStep.covered = rows.map (·.1) := by
  induction rows with
  | nil => rfl
  | cons row rows ih => exact congrArg (row.1 :: ·) ih

theorem fits_singleSteps {α : Type} {roles : List LaneRole} (rows : List (Nat × α)) :
    ∀ step ∈ singleSteps rows, step.Fits roles := by
  intro step hstep
  obtain ⟨row, -, rfl⟩ := List.mem_map.mp hstep
  exact .clause row.1

theorem covered_mappingSteps (limits : LaneLimits) (rows : List (Nat × List KeyTest)) :
    (mappingSteps limits rows).flatMap PlanStep.covered = rows.map (·.1) := by
  unfold mappingSteps
  split
  · exact covered_singleSteps rows
  · exact List.append_nil _

namespace LaneRun

theorem covered_steps (limits : LaneLimits) (run : LaneRun) :
    (run.steps limits).flatMap PlanStep.covered = run.covered := by
  cases run with
  | alone index => rfl
  | sequence rows =>
    rw [steps]
    split
    · exact covered_singleSteps rows
    · exact List.append_nil _
  | mapping rows =>
    calc
      ((cutByBudget limits.maxKeyTests [] [] rows).flatMap (mappingSteps limits)).flatMap
          PlanStep.covered
        = (cutByBudget limits.maxKeyTests [] [] rows).flatMap (·.map (·.1)) := by
          rw [List.flatMap_assoc, funext (covered_mappingSteps limits)]
      _ = (cutByBudget limits.maxKeyTests [] [] rows).flatten.map (·.1) := by
          rw [List.map_flatten, List.flatMap_def]
      _ = rows.map (·.1) := by rw [flatten_cutByBudget, List.nil_append]

theorem fits_steps {roles : List LaneRole} (limits : LaneLimits) {run : LaneRun}
    (h : run.Fits roles) : ∀ step ∈ run.steps limits, step.Fits roles := by
  cases run with
  | alone index => exact List.forall_mem_singleton.mpr (.clause index)
  | sequence rows =>
    rw [steps]
    split
    · exact fits_singleSteps rows
    · exact List.forall_mem_singleton.mpr (.sequenceLane rows h.1 h.2)
  | mapping rows =>
    intro step hstep
    obtain ⟨chunk, hchunk, hstep⟩ := List.mem_flatMap.mp hstep
    have hsub : ∀ row ∈ chunk, row ∈ rows := by
      intro row hrow
      have hmem := List.mem_flatten.mpr ⟨chunk, hchunk, hrow⟩
      rwa [flatten_cutByBudget] at hmem
    unfold mappingSteps at hstep
    split at hstep
    · exact fits_singleSteps chunk step hstep
    · rw [List.mem_singleton.mp hstep]
      exact .mappingLane chunk (ne_nil_of_mem_cutByBudget hchunk)
        fun row hrow => h.2 row (hsub row hrow)

/-- No lane is shorter than the limit. -/
theorem minLaneLength_le_of_mem_steps {limits : LaneLimits} {run : LaneRun} {step : PlanStep}
    (h : step ∈ run.steps limits) (hlane : step.laned ≠ []) :
    limits.minLaneLength ≤ step.laned.length := by
  have hsingle {α : Type} {rows : List (Nat × α)} (hstep : step ∈ singleSteps rows) : False := by
    obtain ⟨row, -, rfl⟩ := List.mem_map.mp hstep
    exact hlane rfl
  cases run with
  | alone index =>
    rw [steps, List.mem_singleton] at h
    rw [h] at hlane
    exact absurd rfl hlane
  | sequence rows =>
    rw [steps] at h
    split at h
    · exact (hsingle h).elim
    · rename_i hlong
      rw [List.mem_singleton.mp h, PlanStep.laned, List.length_map]
      exact Nat.le_of_not_lt hlong
  | mapping rows =>
    rw [steps] at h
    obtain ⟨chunk, -, hstep⟩ := List.mem_flatMap.mp h
    unfold mappingSteps at hstep
    split at hstep
    · exact (hsingle hstep).elim
    · rename_i hlong
      rw [List.mem_singleton.mp hstep, PlanStep.laned, List.length_map]
      exact Nat.le_of_not_lt hlong

end LaneRun

/-! ## Plans -/

/-- **A plan covers the clauses**, each once and in order. -/
theorem Statement.covered_compile (statement : Statement) (limits : LaneLimits) :
    (statement.compile limits).steps.flatMap PlanStep.covered =
      List.range statement.clauses.length := by
  unfold Statement.compile
  simp only [List.flatMap_assoc, LaneRun.covered_steps]
  rw [LaneRun.covered_ofRoles, List.length_map, List.range_eq_range']

/-- **Every lane of a plan fits the roles of its clauses.** -/
theorem Statement.fits_compile (statement : Statement) (limits : LaneLimits) :
    ∀ step ∈ (statement.compile limits).steps, step.Fits (statement.clauses.map (·.laneRole)) := by
  intro step hstep
  obtain ⟨run, hrun, hstep⟩ := List.mem_flatMap.mp hstep
  exact run.fits_steps limits (LaneRun.fits_ofRoles [] _ run hrun) step hstep

/-- **No lane of a plan is shorter than the limit.** -/
theorem Statement.minLaneLength_le_of_mem_compile {statement : Statement} {limits : LaneLimits}
    {step : PlanStep} (h : step ∈ (statement.compile limits).steps) (hlane : step.laned ≠ []) :
    limits.minLaneLength ≤ step.laned.length := by
  obtain ⟨run, -, hstep⟩ := List.mem_flatMap.mp h
  exact LaneRun.minLaneLength_le_of_mem_steps hstep hlane

/-- An index with a role has a clause with that role. -/
theorem Statement.exists_clause_of_role {statement : Statement} {index : Nat} {role : LaneRole}
    (h : (statement.clauses.map (·.laneRole))[index]? = some role) :
    ∃ clause, statement.clauses[index]? = some clause ∧ clause.laneRole = role := by
  rw [List.getElem?_map] at h
  exact Option.map_eq_some_iff.mp h

/-- The clauses of a step increase. -/
theorem Statement.pairwise_covered {statement : Statement} {limits : LaneLimits} {step : PlanStep}
    (h : step ∈ (statement.compile limits).steps) : step.covered.Pairwise (· < ·) := by
  have hsublist : step.covered.Sublist (List.range statement.clauses.length) := by
    rw [← statement.covered_compile limits, List.flatMap_def]
    exact List.sublist_flatten_of_mem (List.mem_map_of_mem h)
  exact List.pairwise_lt_range.sublist hsublist

end StructuralMatch

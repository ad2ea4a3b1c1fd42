import StructuralMatch.Proofs.KeyTree
import StructuralMatch.Proofs.LengthDispatch
import StructuralMatch.Proofs.PlanShape
import StructuralMatch.Proofs.ProblemReport

/-!
# `Proofs.WellFormedPlan` — compiled plans are well-formed

A plan is well-formed if its steps cover the clauses from left to right and each of its lanes is in order:
the lane has clauses enough, they all have the shape of the lane and are free of structural problems, and
its table or tree names no other clauses and never goes back to an earlier one.

The clauses of a lane increase, since they are part of what the plan covers. What a table or tree offers is
taken from them in order (`LengthDispatch.sublist_candidates_ofRows`, `KeyTree.sublist_of_walk_ofRows`),
and so it increases as well. The main result is `Statement.wellFormed_compile`.
-/

namespace StructuralMatch

/-! ## Shapes of patterns -/

namespace Pattern

/-- The pattern is a sequence pattern. -/
def IsSequence (pattern : Pattern) : Prop := ∃ items star, pattern = .sequence items star

/-- The pattern is a mapping pattern whose keys are all literals. -/
def IsLiteralMapping (pattern : Pattern) : Prop :=
  ∃ entries rest, pattern = .mapping entries rest ∧ ∀ entry ∈ entries, ∃ value, entry.1 = .literal value

theorem isSequence_of_ofPattern? {pattern : Pattern} {constraint : LengthConstraint}
    (h : LengthConstraint.ofPattern? pattern = some constraint) : pattern.IsSequence := by
  cases pattern with
  | sequence items star => exact ⟨items, star, rfl⟩
  | _ => cases h

theorem isLiteralMapping_of_keyTests? {pattern : Pattern} {tests : List KeyTest}
    (h : pattern.keyTests? = some tests) : pattern.IsLiteralMapping := by
  cases pattern with
  | mapping entries rest =>
    obtain ⟨literals, hkeys, -⟩ := keyTests?_eq_some h
    refine ⟨entries, rest, rfl, ?_⟩
    intro entry hentry
    have hkey : entry.1 ∈ literals.map MappingKey.literal := hkeys ▸ List.mem_map_of_mem hentry
    obtain ⟨value, -, hvalue⟩ := List.mem_map.mp hkey
    exact ⟨value, hvalue.symm⟩
  | _ => cases h

end Pattern

/-! ## Well-formed plans -/

/-- **The clauses of a lane are in order**: there are some and no fewer than the limit, their patterns suit
    the lane, and no structural problem is reported for any of them. -/
structure Statement.FormsLane (statement : Statement) (limits : LaneLimits) (suits : Pattern → Prop)
    (clauses : List Nat) : Prop where
  nonempty : clauses ≠ []
  long : limits.minLaneLength ≤ clauses.length
  suited : ∀ index ∈ clauses, ∃ clause, statement.clauses[index]? = some clause ∧ suits clause.pattern
  sound : ∀ problem ∈ statement.problems, problem.clause ∈ clauses → problem.kind.isStructural = false

/-- **A step is in order**: so are the clauses of a lane, its table or tree names no clause besides them,
    and the clauses increase among the candidates for any length and on any path through the tree. -/
def PlanStep.WellFormed (statement : Statement) (limits : LaneLimits) : PlanStep → Prop
  | .clause _ => True
  | .sequenceLane clauses dispatch =>
    statement.FormsLane limits Pattern.IsSequence clauses ∧
      (∀ entry ∈ dispatch.exact ++ dispatch.atLeast, entry.2 ⊆ clauses) ∧
      ∀ length, (dispatch.candidates length).Pairwise (· < ·)
  | .mappingLane clauses tree =>
    statement.FormsLane limits Pattern.IsLiteralMapping clauses ∧
      tree.clauses ⊆ clauses ∧
      ∀ offered, tree.Path offered → offered.Pairwise (· < ·)

/-- **A plan is in order**: so is each of its steps, and together they cover the clauses from left to
    right. -/
structure Plan.WellFormed (statement : Statement) (limits : LaneLimits) (plan : Plan) : Prop where
  covers : plan.steps.flatMap PlanStep.covered = List.range statement.clauses.length
  steps : ∀ step ∈ plan.steps, step.WellFormed statement limits

/-! ## Compiled plans -/

namespace Statement

variable {statement : Statement} {limits : LaneLimits}

/-- A clause with a reported structural problem is tried alone. -/
theorem laneRole_of_mem_problems {problem : Problem} {clause : Clause}
    (hproblem : problem ∈ statement.problems) (hstructural : problem.kind.isStructural = true)
    (hclause : statement.clauses[problem.clause]? = some clause) : clause.laneRole = .alone := by
  obtain ⟨found, hfound, hkind⟩ := mem_problems_iff.mp hproblem
  obtain rfl : clause = found := Option.some.inj (hclause.symm.trans hfound)
  rcases hkind with hkind | ⟨shadow, -, -, hkind⟩
  · exact Clause.laneRole_of_structuralProblems (List.ne_nil_of_mem hkind)
  · rw [hkind] at hstructural
    cases hstructural

/-- Rows that hold the roles of their clauses form a lane, if there are enough of them. -/
theorem formsLane_of_roles {ρ : Type} {role : ρ → LaneRole} {suits : Pattern → Prop}
    {rows : List (Nat × ρ)} (hne : rows ≠ [])
    (hlong : limits.minLaneLength ≤ (rows.map (·.1)).length)
    (hroles : ∀ row ∈ rows, (statement.clauses.map (·.laneRole))[row.1]? = some (role row.2))
    (hlaned : ∀ r, role r ≠ .alone)
    (hsuits : ∀ {clause : Clause} {r}, clause.laneRole = role r → suits clause.pattern) :
    statement.FormsLane limits suits (rows.map (·.1)) := by
  have hclauses : ∀ index ∈ rows.map (·.1), ∃ clause r, statement.clauses[index]? = some clause ∧
      clause.laneRole = role r := by
    intro index hindex
    obtain ⟨row, hrow, rfl⟩ := List.mem_map.mp hindex
    obtain ⟨clause, hclause, hrole⟩ := exists_clause_of_role (hroles row hrow)
    exact ⟨clause, row.2, hclause, hrole⟩
  refine { nonempty := by simpa using hne, long := hlong, suited := ?_, sound := ?_ }
  · intro index hindex
    obtain ⟨clause, r, hclause, hrole⟩ := hclauses index hindex
    exact ⟨clause, hclause, hsuits hrole⟩
  · intro problem hproblem hmem
    obtain ⟨clause, r, hclause, hrole⟩ := hclauses problem.clause hmem
    by_contra hstructural
    rw [Bool.not_eq_false] at hstructural
    have halone := laneRole_of_mem_problems hproblem hstructural hclause
    exact hlaned r (hrole.symm.trans halone)

theorem wellFormed_of_mem_compile {step : PlanStep} (h : step ∈ (statement.compile limits).steps) :
    step.WellFormed statement limits := by
  have hsorted := pairwise_covered h
  have hlong := minLaneLength_le_of_mem_compile h
  cases statement.fits_compile limits step h with
  | clause index => trivial
  | sequenceLane rows hne hroles =>
    have hlane : statement.FormsLane limits Pattern.IsSequence (rows.map (·.1)) :=
      formsLane_of_roles hne (hlong (by simpa [PlanStep.laned] using hne)) hroles
        (fun _ hrole => by cases hrole)
        fun hrole => Pattern.isSequence_of_ofPattern? (Clause.ofPattern?_of_laneRole hrole)
    refine ⟨hlane, fun entry hentry => LengthDispatch.subset_of_mem_tables hentry, ?_⟩
    intro length
    exact hsorted.sublist (LengthDispatch.sublist_candidates_ofRows rows length)
  | mappingLane rows hne hroles =>
    have hlane : statement.FormsLane limits Pattern.IsLiteralMapping (rows.map (·.1)) :=
      formsLane_of_roles hne (hlong (by simpa [PlanStep.laned] using hne)) hroles
        (fun _ hrole => by cases hrole)
        fun hrole => Pattern.isLiteralMapping_of_keyTests? (Clause.keyTests?_of_laneRole hrole)
    refine ⟨hlane, KeyTree.subset_clauses_ofRows rows, ?_⟩
    intro offered hpath
    exact hsorted.sublist (KeyTree.sublist_of_walk_ofRows hpath)

/-- **Compiled plans are well-formed**, whatever the shapes and problems of the clauses and the limits on
    lanes. -/
theorem wellFormed_compile (statement : Statement) (limits : LaneLimits) :
    (statement.compile limits).WellFormed statement limits where
  covers := statement.covered_compile limits
  steps _ := wellFormed_of_mem_compile

end Statement

end StructuralMatch

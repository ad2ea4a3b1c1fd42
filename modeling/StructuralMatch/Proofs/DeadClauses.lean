import StructuralMatch.Proofs.LaneRefinement
import StructuralMatch.Proofs.ProblemReport

/-!
# `Proofs.DeadClauses` — clauses that are reported as unreachable are dead

A clause without a guard whose pattern is irrefutable wins once it is reached, unless an error ends the
evaluation: alternatives before an irrefutable one may ask, bind and fail, but the pattern as a whole
never answers `false` (`matchPattern_ne_false`). So no clause behind the first such clause is ever tried,
and a statement does the same without them.

* `Statement.shadow?_eq_some_iff` says which clause the reports name.
* `Statement.withoutDead` drops every clause that is reported as unreachable.
* The main result is `Statement.unreachable_dead`.
-/

namespace StructuralMatch

namespace Matcher

/-! ## Irrefutable patterns -/

-- The induction follows `isIrrefutable`, which looks below names and into alternatives only.
mutual
/-- **An irrefutable pattern never fails to match**, whatever is in memory and however deep it stands. -/
theorem matchPattern_ne_false : (pattern : Pattern) → pattern.isIrrefutable = true →
    ∀ (value : Value) (path : AccessPath) (s t : Matcher),
      matchPattern pattern value path s ≠ .ok false t
  | .wildcard, _, value, path, s, t => by
    intro hrun
    rw [matchPattern] at hrun
    obtain ⟨_, hinner, -⟩ := exists_of_descend_ok hrun
    cases hinner
  | .capture name, _, value, path, s, t => by
    intro hrun
    rw [matchPattern] at hrun
    obtain ⟨_, hinner, -⟩ := exists_of_descend_ok hrun
    cases hinner
  | .named pattern name, h, value, path, s, t => by
    intro hrun
    rw [Pattern.isIrrefutable] at h
    rw [matchPattern] at hrun
    obtain ⟨_, hinner, -⟩ := exists_of_descend_ok hrun
    obtain ⟨passed, u, hpattern, hrest⟩ := exists_of_bind_ok hinner
    cases passed with
    | true => cases hrest
    | false => exact matchPattern_ne_false pattern h value path _ u hpattern
  | .anyOf alternatives, h, value, path, s, t => by
    intro hrun
    rw [Pattern.isIrrefutable] at h
    rw [matchPattern] at hrun
    obtain ⟨u, hinner, -⟩ := exists_of_descend_ok hrun
    exact matchFirst_ne_false alternatives h value path _ u hinner
  | .literal _, h, _, _, _, _ | .valueRef _, h, _, _, _, _ | .sequence _ _, h, _, _, _, _
  | .mapping _ _, h, _, _, _, _ | .ofClass _ _ _, h, _, _, _, _ => by
    rw [Pattern.isIrrefutable] at h
    all_goals cases h

/-- Some alternative matches if one of them is irrefutable. -/
theorem matchFirst_ne_false : (alternatives : List Pattern) →
    Pattern.anyIrrefutable alternatives = true →
    ∀ (value : Value) (path : AccessPath) (s t : Matcher),
      matchFirst alternatives value path s ≠ .ok false t
  | [], h, _, _, _, _ => by cases h
  | pattern :: rest, h, value, path, s, t => by
    intro hrun
    rw [Pattern.anyIrrefutable, Bool.or_eq_true] at h
    rw [matchFirst] at hrun
    obtain ⟨passed, u, hattempt, hrest⟩ := exists_of_bind_ok hrun
    obtain ⟨v, hpattern, -⟩ := exists_of_attempt_ok hattempt
    cases passed with
    | true => cases hrest
    -- The first alternative failed, so it is another one that is irrefutable.
    | false =>
      rcases h with h | h
      · exact matchPattern_ne_false pattern h value path s v hpattern
      · exact matchFirst_ne_false rest h value path u t hrest
end

/-! ## Clauses that always win -/

section Clauses

variable {statement other : Statement} {subject : Value}

/-- **A clause that always wins is not passed over.** -/
theorem tryClause_ne_none {index : Nat} (h : statement.AlwaysWins index) (s t : Matcher) :
    tryClause statement subject index s ≠ .ok none t := by
  intro hrun
  obtain ⟨clause, hclause, hguard, hirrefutable⟩ := h
  rw [tryClause_eq hclause] at hrun
  obtain ⟨matched, u, hpattern, hrest⟩ := exists_of_bind_ok hrun
  cases matched with
  | false => exact matchPattern_ne_false clause.pattern hirrefutable subject .root _ u hpattern
  | true =>
    unfold settle at hrest
    rw [hguard] at hrest
    cases hrest

/-- Among several clauses one wins if one of them always does. -/
theorem tryEach_ne_none {indices : List Nat} {index : Nat} (hmem : index ∈ indices)
    (h : statement.AlwaysWins index) (s t : Matcher) :
    tryEach statement subject indices s ≠ .ok none t := by
  intro hrun
  induction indices generalizing s with
  | nil => cases hmem
  | cons first rest ih =>
    rw [tryEach] at hrun
    obtain ⟨outcome, u, hfirst, hrest⟩ := exists_of_bind_ok hrun
    cases outcome with
    | some outcome => cases hrest
    | none =>
      rcases List.mem_cons.mp hmem with rfl | hmem
      · exact tryClause_ne_none h s u hfirst
      · exact ih hmem u hrest

/-- **What comes behind a clause that always wins is not tried.** -/
theorem tryEach_append_of_alwaysWins {indices : List Nat} {index : Nat} (hmem : index ∈ indices)
    (h : statement.AlwaysWins index) (rest : List Nat) :
    tryEach statement subject (indices ++ rest) = tryEach statement subject indices := by
  funext s
  rw [tryEach_append]
  cases hrun : tryEach statement subject indices s with
  | error e t => exact bind_of_error hrun
  | ok outcome t =>
    cases outcome with
    | some outcome => exact bind_of_ok hrun
    | none => exact absurd hrun (tryEach_ne_none hmem h s t)

/-- Only the clauses that are tried matter. -/
theorem tryEach_congr {indices : List Nat}
    (h : ∀ index ∈ indices, other.clauses[index]? = statement.clauses[index]?) :
    tryEach other subject indices = tryEach statement subject indices := by
  induction indices with
  | nil => rfl
  | cons index rest ih =>
    obtain ⟨hindex, hrest⟩ := List.forall_mem_cons.mp h
    have hclause : tryClause other subject index = tryClause statement subject index := by
      unfold tryClause
      rw [hindex]
    rw [tryEach, tryEach, hclause, ih hrest]

end Clauses

/-- **Clauses behind one that always wins may be dropped.** -/
theorem runInOrder_take {statement other : Statement} {shadow : Nat} (h : statement.AlwaysWins shadow)
    (hother : other.clauses = statement.clauses.take (shadow + 1)) (subject : Value) :
    runInOrder other subject = runInOrder statement subject := by
  obtain ⟨clause, hclause, -⟩ := id h
  have hshadow : shadow < statement.clauses.length := (List.getElem?_eq_some_iff.mp hclause).1
  have hlength : other.clauses.length = shadow + 1 := by
    rw [hother, List.length_take]
    omega
  have hsplit : List.range statement.clauses.length = List.range (shadow + 1) ++
      (List.range (statement.clauses.length - (shadow + 1))).map (shadow + 1 + ·) := by
    rw [← List.range_add]
    congr 1
    omega
  have hsame : ∀ index ∈ List.range (shadow + 1),
      other.clauses[index]? = statement.clauses[index]? := by
    intro index hindex
    rw [hother, List.getElem?_take_of_lt (List.mem_range.mp hindex)]
  unfold runInOrder
  rw [hlength, tryEach_congr hsame, hsplit,
    tryEach_append_of_alwaysWins (List.mem_range.mpr (Nat.lt_succ_self shadow)) h]

end Matcher

namespace Statement

/-! ## Dropping the dead clauses -/

/-- Whether a clause is reported as unreachable. -/
def isDead (statement : Statement) (index : Nat) : Bool :=
  statement.problems.any fun problem => problem.clause = index && !problem.kind.isStructural

/-- The statement without the clauses that are reported as unreachable. -/
def withoutDead (statement : Statement) : Statement where
  subject := statement.subject
  clauses := (statement.clauses.zipIdx.filter fun entry => !statement.isDead entry.2).map (·.1)

theorem isDead_iff {statement : Statement} {index : Nat} :
    statement.isDead index = true ↔ ∃ shadow, ⟨index, .unreachable shadow⟩ ∈ statement.problems := by
  unfold isDead
  simp only [List.any_eq_true, Bool.and_eq_true, decide_eq_true_eq, Bool.not_eq_true']
  constructor
  · rintro ⟨⟨_, kind⟩, hproblem, rfl, hkind⟩
    cases kind with
    | unreachable shadow => exact ⟨shadow, hproblem⟩
    | _ => cases hkind
  · rintro ⟨shadow, hproblem⟩
    exact ⟨_, hproblem, rfl, rfl⟩

/-- The items at the first positions of a list. -/
theorem map_filter_zipIdx_lt {α : Type} (items : List α) (count : Nat) :
    (items.zipIdx.filter fun entry => decide (entry.2 < count)).map (·.1) = items.take count := by
  have hsplit : items.zipIdx = (items.take count).zipIdx ++
      (items.drop count).zipIdx (0 + (items.take count).length) := by
    rw [← List.zipIdx_append, List.take_append_drop]
  have hfirst : ∀ entry ∈ (items.take count).zipIdx, decide (entry.2 < count) = true := by
    intro entry hentry
    have hlt := (List.mem_zipIdx' hentry).1
    rw [List.length_take] at hlt
    exact decide_eq_true (by omega)
  have hrest : ∀ entry ∈ (items.drop count).zipIdx (0 + (items.take count).length),
      ¬decide (entry.2 < count) = true := by
    intro entry hentry
    obtain ⟨hle, hlt, -⟩ := List.mem_zipIdx hentry
    rw [List.length_take] at hle hlt
    rw [List.length_drop] at hlt
    rw [decide_eq_true_eq]
    omega
  rw [hsplit, List.filter_append, List.filter_eq_self.mpr hfirst, List.filter_eq_nil_iff.mpr hrest,
    List.append_nil, List.zipIdx_map_fst]

/-- **The clauses that are not dead are those up to the first that always wins.** -/
theorem clauses_withoutDead {statement : Statement} {shadow : Nat}
    (h : statement.shadow? = some shadow) :
    statement.withoutDead.clauses = statement.clauses.take (shadow + 1) := by
  rw [← map_filter_zipIdx_lt]
  unfold withoutDead
  -- A clause is kept if it does not come behind the first that always wins.
  refine congrArg (List.map _) (List.filter_congr fun entry hentry => ?_)
  have hentry : entry.2 < statement.clauses.length := (List.mem_zipIdx' hentry).1
  have hdead : statement.isDead entry.2 = true ↔ shadow < entry.2 := by
    rw [isDead_iff]
    simp only [unreachable_mem_problems_iff, h]
    exact ⟨fun ⟨_, _, heq, hlt⟩ => by cases heq; exact hlt, fun hlt => ⟨shadow, hentry, rfl, hlt⟩⟩
  rw [Bool.eq_iff_iff, Bool.not_eq_true', ← Bool.not_eq_true, hdead, decide_eq_true_eq]
  omega

/-- Where no clause always wins, none is dead. -/
theorem withoutDead_of_none {statement : Statement} (h : statement.shadow? = none) :
    statement.withoutDead = statement := by
  have halive : ∀ index, statement.isDead index = false := by
    intro index
    rw [← Bool.not_eq_true, isDead_iff]
    rintro ⟨shadow, hproblem⟩
    rw [unreachable_mem_problems_iff, h] at hproblem
    cases hproblem.2.1
  unfold withoutDead
  rw [List.filter_eq_self.mpr (by simp [halive]), List.zipIdx_map_fst]

/-- **Trying every clause is the same without the dead ones.** -/
theorem runInOrder_withoutDead (statement : Statement) (subject : Value) :
    Matcher.runInOrder statement.withoutDead subject = Matcher.runInOrder statement subject := by
  cases h : statement.shadow? with
  | none => rw [withoutDead_of_none h]
  | some shadow =>
    exact Matcher.runInOrder_take (shadow?_eq_some_iff.mp h).1 (clauses_withoutDead h) subject

/-- **Clauses that are reported as unreachable are dead.** They are the clauses behind the first one that
    always wins, which the report names. Without them the statement evaluates to the same, by either
    strategy: the results are equal, and so are the hosts with their logs. -/
theorem unreachable_dead (statement : Statement) :
    (∀ index shadow, ⟨index, .unreachable shadow⟩ ∈ statement.problems ↔
      index < statement.clauses.length ∧ shadow < index ∧
        IsLeast {i | statement.AlwaysWins i} shadow) ∧
    ∀ (engine : Engine) (strategy : Strategy) (host : Host) (subject : Value),
      engine.matchValueWith strategy host (engine.compile statement.withoutDead) subject =
        engine.matchValueWith strategy host (engine.compile statement) subject := by
  constructor
  · intro index shadow
    rw [unreachable_mem_problems_iff, shadow?_eq_some_iff, and_comm (b := shadow < index)]
  · intro engine strategy host subject
    -- Each plan is compared with trying every clause, since the two plans may differ in shape.
    have hlanes (statement : Statement) := engine.run_congr host engine.config.maxDepth
      (Matcher.runInOrder_runPlan statement engine.config.lanes subject
        (Matcher.limitReached?_ofHost host engine.kinds engine.config.maxDepth))
    cases strategy with
    | inOrder =>
      exact congrArg (engine.run host engine.config.maxDepth) (statement.runInOrder_withoutDead subject)
    | lanes =>
      calc engine.run host engine.config.maxDepth (Matcher.runPlan statement.withoutDead
            (statement.withoutDead.compile engine.config.lanes) subject)
        _ = engine.run host engine.config.maxDepth (Matcher.runInOrder statement.withoutDead subject) :=
          (hlanes statement.withoutDead).symm
        _ = engine.run host engine.config.maxDepth (Matcher.runInOrder statement subject) := by
          rw [runInOrder_withoutDead]
        _ = engine.run host engine.config.maxDepth (Matcher.runPlan statement
            (statement.compile engine.config.lanes) subject) := hlanes statement

end Statement

end StructuralMatch

import Mathlib.Algebra.Group.Nat.Defs
import Mathlib.Data.List.Chain
import StructuralMatch.Proofs.KeyPaths
import StructuralMatch.Proofs.LaneChunks
import StructuralMatch.Proofs.StructuralChecks

/-!
# `Proofs.KeyBudget` — the budget on tests bounds the trees of a plan

A tree may have more nodes than its rows have tests, as the later rows stand below both branches of a test.
What bounds the tree is the number of distinct tests, and this is what the budget bounds.

* A tree that asks no test twice on a path has fewer nodes than its tests have subsets
  (`KeyTree.testCount_lt_two_pow`).
* The row of a clause repeats no test (`Clause.exists_keys_of_laneRole`), so that its tree has a node for
  each of them (`Clause.testCount_ofRow`).
* The chunks of a plan are cut at the budget (`Statement.CutAtBudget`), and `Statement.budgeted_compile`
  says what this means for the lanes and their trees.
-/

namespace StructuralMatch

/-! ## Sizes of trees -/

namespace KeyTree

/-- **A tree that asks no test twice on a path** has fewer nodes with a test than there are sets of tests.
    Below a question neither branch asks it again, so that one test less is left for them. -/
theorem testCount_lt_two_pow {tree : KeyTree} {tests : Finset KeyTest}
    (h : ∀ answers offered, tree.Trail answers offered →
      (answers.map (·.1)).Nodup ∧ ∀ answer ∈ answers, answer.1 ∈ tests) :
    tree.testCount < 2 ^ tests.card := by
  induction tree generalizing tests with
  | exhausted => exact Nat.two_pow_pos _
  | candidate clause next ih =>
    exact ih fun answers offered htrail => h answers (clause :: offered) (.candidate htrail)
  | ask question pass fail ihpass ihfail =>
    have hbelow {answers : Answers} {outcome : Bool}
        (hall : (((question, outcome) :: answers).map (·.1)).Nodup ∧
          ∀ answer ∈ (question, outcome) :: answers, answer.1 ∈ tests) :
        (answers.map (·.1)).Nodup ∧ ∀ answer ∈ answers, answer.1 ∈ tests.erase question := by
      obtain ⟨hnodup, hmem⟩ := hall
      obtain ⟨hnew, hnodup⟩ := List.nodup_cons.mp hnodup
      refine ⟨hnodup, fun answer hanswer => Finset.mem_erase.mpr ⟨?_, ?_⟩⟩
      · exact fun heq => hnew (List.mem_map.mpr ⟨answer, hanswer, heq⟩)
      · exact hmem answer (List.mem_cons_of_mem _ hanswer)
    have hpass : pass.testCount < 2 ^ (tests.erase question).card :=
      ihpass fun answers offered htrail => hbelow (h _ offered (.pass htrail))
    have hfail : fail.testCount < 2 ^ (tests.erase question).card :=
      ihfail fun answers offered htrail => hbelow (h _ offered (.fail htrail))
    obtain ⟨answers, offered, htrail⟩ := exists_trail pass
    have hquestion : question ∈ tests := (h _ offered (.pass htrail)).2 _ List.mem_cons_self
    rw [testCount, ← Finset.card_erase_add_one hquestion, Nat.pow_succ]
    omega

/-- The tree of some rows has fewer nodes with a test than their tests have subsets. -/
theorem testCount_ofRows_lt (rows : List (Nat × List KeyTest)) :
    (ofRows rows).testCount < 2 ^ (distinctTests rows).card := by
  refine testCount_lt_two_pow fun answers offered htrail => ?_
  obtain ⟨hinforms, hmem⟩ := informs_of_trail_ofRowsUnder htrail
  exact ⟨hinforms.nodup, fun answer hanswer => List.mem_toFinset.mpr (hmem answer hanswer)⟩

/-- A row of unknown tests asks the first one. -/
theorem ofRow_of_unknown (clause : Nat) (next : KeyFacts → KeyTree) {test : KeyTest}
    {tests : List KeyTest} {facts : KeyFacts}
    (hunknown : ∀ other ∈ test :: tests, facts.decide? other = none) :
    ofRow clause next (test :: tests) facts =
      .ask test (ofRow clause next tests (facts.assume test true)) (next (facts.assume test false)) := by
  rcases ofRow_cons_cases clause next test tests facts with
    ⟨⟨failing, hmem, hfails⟩, -⟩ | ⟨hholds, -⟩ | ⟨-, -, htree⟩
  · rw [hunknown failing hmem] at hfails
    cases hfails
  · rw [hunknown test List.mem_cons_self] at hholds
    cases hholds
  · exact htree

/-- A row asks for each key that nothing is known of. -/
theorem testCount_ofRow_keys (clause : Nat) {keys : List MapKey} (hdistinct : keys.Nodup)
    (facts : KeyFacts) (hunknown : ∀ key ∈ keys, facts.decide? (.hasKey key) = none) :
    (ofRow clause (fun _ => .exhausted) (keys.map .hasKey) facts).testCount = keys.length := by
  induction keys generalizing facts with
  | nil => rfl
  | cons key rest ih =>
    obtain ⟨hnew, hdistinct⟩ := List.nodup_cons.mp hdistinct
    obtain ⟨hkey, hrest⟩ := List.forall_mem_cons.mp hunknown
    have hbelow := ih hdistinct (facts.assume (.hasKey key) true) fun other hother => by
      rw [KeyFacts.decide?_hasKey_assume_of_ne (ne_of_mem_of_not_mem hother hnew)]
      exact hrest other hother
    have hunknown : ∀ other ∈ .hasKey key :: rest.map .hasKey, facts.decide? other = none :=
      List.forall_mem_cons.mpr ⟨hkey, List.forall_mem_map.mpr hrest⟩
    rw [List.map_cons, ofRow_of_unknown clause _ hunknown, testCount, hbelow, testCount, List.length_cons]
    omega

end KeyTree

/-! ## Rows of clauses -/

namespace Clause

variable {clause : Clause} {tests : List KeyTest}

/-- The clauses that may join a mapping lane have no structural problem and a pattern with tests. -/
theorem laneRole_eq_mapping_iff :
    clause.laneRole = .mapping tests ↔
      clause.structuralProblems = [] ∧ clause.pattern.keyTests? = some tests := by
  constructor
  · intro h
    refine ⟨?_, keyTests?_of_laneRole h⟩
    by_contra hproblems
    rw [laneRole_of_structuralProblems hproblems] at h
    cases h
  · rintro ⟨hproblems, htests⟩
    have hpattern : LengthConstraint.ofPattern? clause.pattern = none := by
      cases hpattern : clause.pattern <;> rw [hpattern] at htests <;> first | rfl | cases htests
    rw [laneRole, hproblems, hpattern, htests]
    rfl

/-- **A row tests different keys**, and before them the size or nothing. -/
theorem exists_keys_of_laneRole (h : clause.laneRole = .mapping tests) :
    ∃ keys : List MapKey, keys.Nodup ∧
      (tests = keys.map .hasKey ∨ ∃ size, tests = .sizeIs size :: keys.map .hasKey) := by
  obtain ⟨hproblems, htests⟩ := laneRole_eq_mapping_iff.mp h
  cases hpattern : clause.pattern with
  | mapping entries rest =>
    rw [hpattern] at htests
    obtain ⟨literals, hkeys, rfl⟩ := keyTests?_eq_some htests
    have hinside : clause.pattern.Contains (.mapping entries rest) := hpattern ▸ Relation.ReflTransGen.refl
    have hdistinct := clause.nodup_literalKeys hproblems hinside
    rw [hkeys, Pattern.literalKeys_literals] at hdistinct
    refine ⟨literals.map Literal.mapKey, hdistinct, ?_⟩
    cases rest with
    | none => exact .inr ⟨entries.length, rfl⟩
    | some name => exact .inl rfl
  | _ => rw [hpattern] at htests; cases htests

theorem nodup_of_laneRole (h : clause.laneRole = .mapping tests) : tests.Nodup := by
  obtain ⟨keys, hdistinct, htests⟩ := exists_keys_of_laneRole h
  have hnodup : (keys.map KeyTest.hasKey).Nodup :=
    hdistinct.map fun _ _ heq => KeyTest.hasKey.inj heq
  rcases htests with rfl | ⟨size, rfl⟩
  · exact hnodup
  · exact List.nodup_cons.mpr ⟨by simp, hnodup⟩

/-- **The tree of one row** has a node for each test of the row. -/
theorem testCount_ofRow (h : clause.laneRole = .mapping tests) (index : Nat) :
    (KeyTree.ofRows [(index, tests)]).testCount = tests.length := by
  obtain ⟨keys, hdistinct, rfl | ⟨size, rfl⟩⟩ := exists_keys_of_laneRole h
  · rw [List.length_map]
    exact KeyTree.testCount_ofRow_keys index hdistinct .none fun _ _ => rfl
  · have hunknown : ∀ other ∈ .sizeIs size :: keys.map KeyTest.hasKey, KeyFacts.none.decide? other = none :=
      List.forall_mem_cons.mpr ⟨rfl, List.forall_mem_map.mpr fun _ _ => rfl⟩
    have htree := KeyTree.ofRow_of_unknown index (fun _ => .exhausted) hunknown
    have hkeys := KeyTree.testCount_ofRow_keys index hdistinct
      (KeyFacts.none.assume (.sizeIs size) true) fun _ _ => rfl
    change (KeyTree.ofRow index (fun _ => .exhausted) _ _).testCount = _
    rw [htree, KeyTree.testCount, hkeys, KeyTree.testCount, List.length_cons, List.length_map]
    omega

end Clause
/-! ## Plans -/

namespace Statement

/-- The tests of the clause at an index, if it may join a mapping lane: nothing is wrong with the clause
    itself, and its pattern is a mapping pattern with literal keys. -/
def laneTests? (statement : Statement) (index : Nat) : Option (List KeyTest) :=
  statement.clauses[index]?.bind fun clause =>
    if clause.structuralProblems.isEmpty then clause.pattern.keyTests? else none

/-- The distinct tests of the clauses at some indexes. -/
def distinctTestsOf (statement : Statement) (indexes : List Nat) : Finset KeyTest :=
  (indexes.flatMap fun index => (statement.laneTests? index).getD []).toFinset

/-- **The mapping clauses are cut into chunks, as late as the budget allows.** -/
structure CutAtBudget (statement : Statement) (limits : LaneLimits) (chunks : List (List Nat)) : Prop where
  /-- The chunks are in order and have no clause in common. -/
  ordered : chunks.flatten.Pairwise (· < ·)
  /-- They hold the clauses that may join a mapping lane. -/
  members : ∀ index, index ∈ chunks.flatten ↔ (statement.laneTests? index).isSome
  nonempty : ∀ chunk ∈ chunks, chunk ≠ []
  /-- The clauses of a chunk are neighbours. -/
  neighbours : ∀ chunk ∈ chunks, chunk.IsChain fun index next => next = index + 1
  /-- A chunk ends before a clause that may join no mapping lane, or that would bring its tests above the
      budget. -/
  maximal : ∀ chunk ∈ chunks, ∀ last ∈ chunk.getLast?, (statement.laneTests? (last + 1)).isSome →
    limits.maxKeyTests < (statement.distinctTestsOf (chunk ++ [last + 1])).card
  /-- The mapping lanes of the plan are the chunks that are long enough. -/
  lanes : ∀ clauses, (∃ tree, .mappingLane clauses tree ∈ (statement.compile limits).steps) ↔
    clauses ∈ chunks ∧ limits.minLaneLength ≤ clauses.length

/-- **The budget bounds the mapping lanes of the plan.** -/
structure Budgeted (statement : Statement) (limits : LaneLimits) : Prop where
  /-- A lane of several clauses has no more tests than the budget, and its tree fewer nodes with a test than
      these have subsets. -/
  bounded : ∀ clauses tree, .mappingLane clauses tree ∈ (statement.compile limits).steps →
    2 ≤ clauses.length → (statement.distinctTestsOf clauses).card ≤ limits.maxKeyTests ∧
      tree.testCount < 2 ^ limits.maxKeyTests
  /-- The tree of a lane of one clause has a node for each test of the clause. -/
  single : ∀ index tree, .mappingLane [index] tree ∈ (statement.compile limits).steps →
    ∃ tests, statement.laneTests? index = some tests ∧ tree.testCount = tests.length
  /-- Lanes are not cut shorter than the budget demands. -/
  chunks : ∃ chunks, statement.CutAtBudget limits chunks

variable {statement : Statement} {limits : LaneLimits} {index : Nat} {tests : List KeyTest}

theorem laneTests?_eq_some_iff :
    statement.laneTests? index = some tests ↔
      (statement.clauses.map (·.laneRole))[index]? = some (.mapping tests) := by
  rw [laneTests?, List.getElem?_map, Option.bind_eq_some_iff, Option.map_eq_some_iff]
  refine exists_congr fun clause => and_congr_right fun _ => ?_
  rw [Clause.laneRole_eq_mapping_iff, Option.ite_none_right_eq_some, List.isEmpty_iff]

/-- The distinct tests of clauses are those of their rows. -/
theorem distinctTestsOf_eq {rows : List (Nat × List KeyTest)}
    (h : ∀ row ∈ rows, statement.laneTests? row.1 = some row.2) :
    statement.distinctTestsOf (rows.map (·.1)) = distinctTests rows := by
  rw [distinctTestsOf, distinctTests, List.flatMap_map]
  congr 1
  refine List.flatMap_congr fun row hrow => ?_
  rw [h row hrow, Option.getD_some]

/-- The runs of a statement. -/
def runs (statement : Statement) : List LaneRun :=
  LaneRun.ofRoles 0 (statement.clauses.map (·.laneRole))

/-- The chunks that the mapping runs of a statement are cut into. -/
def rowChunks (statement : Statement) (budget : Nat) : List (List (Nat × List KeyTest)) :=
  statement.runs.flatMap (LaneRun.chunks budget)

theorem flatten_rowChunks (statement : Statement) (budget : Nat) :
    (statement.rowChunks budget).flatten = statement.runs.flatMap LaneRun.mappingRows := by
  rw [rowChunks, List.flatMap_def, List.flatMap_def, List.flatten_flatten, List.map_map]
  congr 1
  exact List.map_congr_left fun run _ => run.flatten_chunks budget

/-- The rows of the chunks are those of the clauses that may join a mapping lane. -/
theorem mem_flatten_rowChunks (statement : Statement) (budget : Nat) (row : Nat × List KeyTest) :
    row ∈ (statement.rowChunks budget).flatten ↔ statement.laneTests? row.1 = some row.2 := by
  rw [flatten_rowChunks, laneTests?_eq_some_iff]
  exact (LaneRun.mem_mappingRows_ofRoles [] (statement.clauses.map (·.laneRole)) row).trans
    (and_iff_right (Nat.zero_le row.1))

/-- The clauses of the runs are the clauses, each once and in order. -/
theorem flatten_covered_runs (statement : Statement) :
    (statement.runs.map LaneRun.covered).flatten = List.range' 0 statement.clauses.length := by
  rw [← List.flatMap_def, runs, LaneRun.covered_ofRoles, List.length_map]

theorem pairwise_flatten_rowChunks (statement : Statement) (budget : Nat) :
    ((statement.rowChunks budget).flatten.map (·.1)).Pairwise (· < ·) := by
  have hsublist (runs : List LaneRun) :
      ((runs.flatMap LaneRun.mappingRows).map (·.1)).Sublist (runs.map LaneRun.covered).flatten := by
    induction runs with
    | nil => exact List.Sublist.refl []
    | cons run rest ih =>
      rw [List.flatMap_cons, List.map_append]
      exact run.covers_mappingRows.sublist.append ih
  rw [flatten_rowChunks]
  refine List.Pairwise.sublist (hsublist statement.runs) ?_
  rw [flatten_covered_runs]
  exact List.pairwise_lt_range'

/-- **The mapping lanes of a plan** are made of the chunks that are long enough. -/
theorem mappingLane_mem_compile {clauses : List Nat} {tree : KeyTree} :
    .mappingLane clauses tree ∈ (statement.compile limits).steps ↔
      ∃ chunk ∈ statement.rowChunks limits.maxKeyTests, limits.minLaneLength ≤ chunk.length ∧
        clauses = chunk.map (·.1) ∧ tree = .ofRows chunk := by
  have hsingle {α : Type} {rows : List (Nat × α)} : .mappingLane clauses tree ∉ singleSteps rows := by
    simp [singleSteps]
  constructor
  · intro h
    obtain ⟨run, hrun, hstep⟩ := List.mem_flatMap.mp h
    cases run with
    | alone index => simp [LaneRun.steps] at hstep
    | sequence rows =>
      rw [LaneRun.steps] at hstep
      split at hstep
      · exact absurd hstep hsingle
      · simp at hstep
    | mapping rows =>
      obtain ⟨chunk, hchunk, hstep⟩ := List.mem_flatMap.mp hstep
      refine ⟨chunk, List.mem_flatMap.mpr ⟨.mapping rows, hrun, hchunk⟩, ?_⟩
      rw [mappingSteps] at hstep
      split at hstep
      · exact absurd hstep hsingle
      · rename_i hlong
        cases List.mem_singleton.mp hstep
        exact ⟨Nat.le_of_not_lt hlong, rfl, rfl⟩
  · rintro ⟨chunk, hchunk, hlong, rfl, rfl⟩
    obtain ⟨run, hrun, hchunk⟩ := List.mem_flatMap.mp hchunk
    refine List.mem_flatMap.mpr ⟨run, hrun, ?_⟩
    cases run with
    | mapping rows =>
      refine List.mem_flatMap.mpr ⟨chunk, hchunk, ?_⟩
      rw [mappingSteps, if_neg (Nat.not_lt.mpr hlong)]
      exact List.mem_singleton_self _
    | _ => cases hchunk

/-- The clauses of a run are neighbours. -/
theorem neighbours_of_mem_runs {run : LaneRun} (h : run ∈ statement.runs) :
    run.covered.IsChain fun index next => next = index + 1 := by
  have hpart : run.covered <:+: (statement.runs.map LaneRun.covered).flatten :=
    List.infix_of_mem_flatten (List.mem_map_of_mem h)
  rw [flatten_covered_runs] at hpart
  exact List.IsChain.infix (List.isChain_range' 0 statement.clauses.length 1) hpart

/-- **A chunk could not take in the clause behind it.** Behind the last chunk of a run there is no clause
    for it, and another one ends before a row that it could not take in. -/
theorem budget_lt_of_mem_rowChunks {budget : Nat} {chunk : List (Nat × List KeyTest)}
    (hchunk : chunk ∈ statement.rowChunks budget) {last : Nat × List KeyTest}
    (hlast : last ∈ chunk.getLast?) (hbehind : statement.laneTests? (last.1 + 1) = some tests) :
    budget < (distinctTests (chunk ++ [(last.1 + 1, tests)])).card := by
  obtain ⟨run, hrun, hchunk⟩ := List.mem_flatMap.mp hchunk
  cases run with
  | mapping rows =>
    have hrows : ∀ row ∈ rows, statement.laneTests? row.1 = some row.2 := fun row hrow =>
      (statement.mem_flatten_rowChunks budget row).mp
        (flatten_rowChunks statement budget ▸ List.mem_flatMap.mpr ⟨.mapping rows, hrun, hrow⟩)
    have hdistinct : ∀ row ∈ rows, row.2.Nodup := fun row hrow => by
      obtain ⟨clause, -, hrole⟩ := exists_clause_of_role (laneTests?_eq_some_iff.mp (hrows row hrow))
      exact Clause.nodup_of_laneRole hrole
    obtain ⟨before, after, hsplit, hafter⟩ :=
      exists_rest_of_mem_cutByBudget Tallies.nil hdistinct hchunk
    rw [List.nil_append] at hsplit
    have hfront : last ∈ (before ++ chunk).getLast? := by
      rw [List.getLast?_append, Option.mem_def.mp hlast]
      rfl
    cases after with
    | nil =>
      rw [List.append_nil] at hsplit
      exact absurd (laneTests?_eq_some_iff.mp hbehind)
        (LaneRun.not_mapping_behind [] _ hrun (hsplit ▸ hfront) tests)
    | cons next after =>
      have hchain : rows.IsChain fun row next => next.1 = row.1 + 1 :=
        (List.isChain_map _).mp (neighbours_of_mem_runs hrun)
      rw [hsplit] at hchain
      have hindex : next.1 = last.1 + 1 :=
        (List.isChain_append.mp hchain).2.2 last hfront next (by simp)
      have htests := hrows next (by simp [hsplit])
      rw [hindex, hbehind] at htests
      have hnext : next = (last.1 + 1, tests) := Prod.ext hindex (Option.some.inj htests).symm
      exact hnext ▸ hafter next (by simp)
  | _ => cases hchunk

/-- A chunk has a row for each of its clauses. -/
theorem laneTests?_of_mem_chunk {budget : Nat} {chunk : List (Nat × List KeyTest)}
    (hchunk : chunk ∈ statement.rowChunks budget) :
    ∀ row ∈ chunk, statement.laneTests? row.1 = some row.2 := fun row hrow =>
  (statement.mem_flatten_rowChunks budget row).mp (List.mem_flatten_of_mem hchunk hrow)

/-- The chunks of a plan are cut at the budget. -/
theorem cutAtBudget_compile (statement : Statement) (limits : LaneLimits) :
    statement.CutAtBudget limits ((statement.rowChunks limits.maxKeyTests).map (·.map (·.1))) where
  ordered := by
    rw [← List.map_flatten]
    exact statement.pairwise_flatten_rowChunks limits.maxKeyTests
  members index := by
    rw [← List.map_flatten, List.mem_map, Option.isSome_iff_exists]
    constructor
    · rintro ⟨row, hrow, rfl⟩
      exact ⟨row.2, (statement.mem_flatten_rowChunks _ row).mp hrow⟩
    · rintro ⟨tests, htests⟩
      exact ⟨(index, tests), (statement.mem_flatten_rowChunks _ _).mpr htests, rfl⟩
  nonempty := by
    refine List.forall_mem_map.mpr fun chunk hchunk hnil => ?_
    obtain ⟨run, -, hchunk⟩ := List.mem_flatMap.mp hchunk
    exact ne_nil_of_mem_cutByBudget hchunk (List.map_eq_nil_iff.mp hnil)
  neighbours := by
    refine List.forall_mem_map.mpr fun chunk hchunk => ?_
    obtain ⟨run, hrun, hchunk⟩ := List.mem_flatMap.mp hchunk
    exact List.IsChain.infix (neighbours_of_mem_runs hrun) (LaneRun.infix_of_mem_chunks hchunk)
  maximal := by
    refine List.forall_mem_map.mpr fun chunk hchunk last hlast hbehind => ?_
    rw [List.getLast?_map] at hlast
    obtain ⟨row, hrow, rfl⟩ := Option.map_eq_some_iff.mp hlast
    obtain ⟨tests, hbehind⟩ := Option.isSome_iff_exists.mp hbehind
    have hrows : ∀ other ∈ chunk ++ [(row.1 + 1, tests)], statement.laneTests? other.1 = some other.2 := by
      refine List.forall_mem_append.mpr ⟨laneTests?_of_mem_chunk hchunk, ?_⟩
      exact List.forall_mem_singleton.mpr hbehind
    have htests := distinctTestsOf_eq hrows
    rw [List.map_append, List.map_singleton] at htests
    rw [htests]
    exact budget_lt_of_mem_rowChunks hchunk hrow hbehind
  lanes clauses := by
    simp only [mappingLane_mem_compile, List.mem_map]
    constructor
    · rintro ⟨tree, chunk, hchunk, hlong, rfl, -⟩
      exact ⟨⟨chunk, hchunk, rfl⟩, by rwa [List.length_map]⟩
    · rintro ⟨⟨chunk, hchunk, rfl⟩, hlong⟩
      exact ⟨.ofRows chunk, chunk, hchunk, by rwa [List.length_map] at hlong, rfl, rfl⟩

/-- **The budget bounds the mapping lanes of every plan**, and no lane is cut shorter than it demands. -/
theorem budgeted_compile (statement : Statement) (limits : LaneLimits) : statement.Budgeted limits where
  bounded clauses tree h hlong := by
    obtain ⟨chunk, hchunk, -, rfl, rfl⟩ := mappingLane_mem_compile.mp h
    rw [List.length_map] at hlong
    obtain ⟨run, -, hcut⟩ := List.mem_flatMap.mp hchunk
    have hcard : (distinctTests chunk).card ≤ limits.maxKeyTests :=
      card_le_of_mem_cutByBudget Tallies.nil (fun hnil => absurd hnil (by simp)) hcut hlong
    rw [distinctTestsOf_eq (laneTests?_of_mem_chunk hchunk)]
    refine ⟨hcard, ?_⟩
    calc (KeyTree.ofRows chunk).testCount
      _ < 2 ^ (distinctTests chunk).card := KeyTree.testCount_ofRows_lt chunk
      _ ≤ 2 ^ limits.maxKeyTests := Nat.pow_le_pow_right Nat.two_pos hcard
  single index tree h := by
    obtain ⟨chunk, hchunk, -, hclauses, rfl⟩ := mappingLane_mem_compile.mp h
    obtain ⟨row, rfl, rfl⟩ := List.map_eq_singleton_iff.mp hclauses.symm
    have htests := laneTests?_of_mem_chunk hchunk row List.mem_cons_self
    obtain ⟨clause, -, hrole⟩ := exists_clause_of_role (laneTests?_eq_some_iff.mp htests)
    exact ⟨row.2, htests, Clause.testCount_ofRow hrole row.1⟩
  chunks := ⟨_, statement.cutAtBudget_compile limits⟩

end Statement

end StructuralMatch

import StructuralMatch.Proofs.LaneRefinement
import StructuralMatch.Proofs.NameChoices

/-!
# `Proofs.StructuralChecks` — a lane tests what its clauses would check

Before its sub-patterns are tried, a sequence pattern checks the number of elements, and a mapping pattern
the number of entries and the keys (`Matcher.admitsStructure`). A lane tests the same by other means. Its
tests on a mapping pattern with a rest name say nothing of the size, and need not: the keys of a pattern
without problems are distinct, and distinct keys find distinct entries.

* `Matcher.admitsStructure_of_ofPattern?` and `Matcher.admitsStructure_of_keyTests?` compare the checks with
  the tests of one pattern.
* `Statement.testsExact_of_noProblems` adds what a lane of a compiled plan offers.
-/

namespace StructuralMatch

/-! ## Literal keys -/

namespace Pattern

/-- The identities of the literals among some keys. -/
def literalKeys (keys : List MappingKey) : List MapKey :=
  (keys.filterMap MappingKey.literal?).map Literal.mapKey

theorem literalKeys_literals (literals : List Literal) :
    literalKeys (literals.map .literal) = literals.map Literal.mapKey := by
  rw [literalKeys, List.filterMap_map]
  exact congrArg _ List.filterMap_some

/-- Keys that are not reported to repeat are distinct. -/
theorem nodup_literalKeys_of_problemsEntries {seen : List MapKey} {entries : List (MappingKey × Pattern)}
    (h : problemsEntries seen entries = []) :
    (literalKeys (entries.map (·.1))).Nodup ∧ ∀ key ∈ literalKeys (entries.map (·.1)), key ∉ seen := by
  induction entries generalizing seen with
  | nil => exact ⟨.nil, fun _ hkey => nomatch hkey⟩
  | cons entry rest ih =>
    obtain ⟨key, pattern⟩ := entry
    cases key with
    | computed expr =>
      rw [problemsEntries, List.append_eq_nil_iff] at h
      exact ih h.2
    | literal constant =>
      rw [problemsEntries, List.append_eq_nil_iff, List.append_eq_nil_iff] at h
      obtain ⟨⟨hfirst, -⟩, hrest⟩ := h
      obtain ⟨hnodup, hunseen⟩ := ih hrest
      have hfirst : constant.mapKey ∉ seen := fun hseen => by simp [hseen] at hfirst
      refine ⟨List.nodup_cons.mpr ⟨fun hagain => ?_, hnodup⟩, List.forall_mem_cons.mpr ⟨hfirst, ?_⟩⟩
      · exact hunseen _ hagain List.mem_cons_self
      · exact fun other hother hseen => hunseen other hother (List.mem_cons_of_mem _ hseen)

end Pattern

/-- **The literal keys of a mapping pattern are distinct** in a clause without structural problems. -/
theorem Clause.nodup_literalKeys {clause : Clause} (hproblems : clause.structuralProblems = [])
    {entries : List (MappingKey × Pattern)} {rest : Option Name}
    (hinside : clause.pattern.Contains (.mapping entries rest)) :
    (Pattern.literalKeys (entries.map (·.1))).Nodup := by
  have hnone : Pattern.problemsEntries [] entries = [] := by
    refine List.eq_nil_iff_forall_not_mem.mpr fun kind hkind => ?_
    have hreported : kind ∈ clause.pattern.problems := hinside.mem_problems (by rwa [Pattern.problems])
    rw [Clause.structuralProblems, List.append_eq_nil_iff] at hproblems
    rw [hproblems.1] at hreported
    cases hreported
  exact (Pattern.nodup_literalKeys_of_problemsEntries hnone).1

/-! ## The checks of a pattern -/

namespace Matcher

/-- **Whether a pattern gets past its checks on the structure of a value**: on the number of elements, or on
    the number of entries and on the keys. Other patterns check nothing of the kind. -/
def admitsStructure : Pattern → Value → AccessPath → MatchM Bool
  | .sequence items star, value, path =>
    return (← sequenceTargets items.length star value path).isSome
  | .mapping entries rest, value, path =>
    return (← mappingParts (entries.map (·.1)) rest value path).isSome
  | _, _, _ => return true

variable {pattern : Pattern} {value : Value} {path : AccessPath} {s t : Matcher}

/-- **A pattern that the structure rules out fails**, and no sub-pattern is tried. -/
theorem matchPattern_of_refused (hlimit : s.limitReached? = none)
    (h : admitsStructure pattern value path { s with depth := s.depth + 1 } = .ok false t) :
    matchPattern pattern value path s = .ok false { t with depth := t.depth - 1 } := by
  cases pattern with
  | sequence items star =>
    obtain ⟨targets, u, htargets, hnone⟩ := exists_of_bind_ok h
    cases targets with
    | some targets => cases hnone
    | none =>
      cases hnone
      rw [matchPattern]
      exact descend_of_ok hlimit (bind_of_ok htargets)
  | mapping entries rest =>
    obtain ⟨parts, u, hparts, hnone⟩ := exists_of_bind_ok h
    cases parts with
    | some parts => cases hnone
    | none =>
      cases hnone
      rw [matchPattern]
      exact descend_of_ok hlimit (bind_of_ok hparts)
  | _ => cases h

/-- **A length is admitted if the pattern gets past its checks.** What is no sequence is not. -/
theorem admitsStructure_of_ofPattern? {constraint : LengthConstraint}
    (h : LengthConstraint.ofPattern? pattern = some constraint) {found : Option (List Value)}
    (hlook : lookElements value path s = .ok found t) :
    admitsStructure pattern value path s =
      .ok (found.any fun elements => constraint.admits elements.length) t := by
  cases pattern with
  | sequence items star =>
    rw [admitsStructure, sequenceTargets_eq, bind_assoc, bind_of_ok hlook]
    cases found with
    | none => rfl
    | some elements =>
      rw [targetsAmong, splitElements_eq, Option.any_some, ← isSome_splitTargets h elements]
      rfl
  | _ => cases h

/-- If the keys are distinct, the tests on them say that the size fits. -/
theorem sizeFits_of_keyTests {entries : List (MappingKey × Pattern)} {rest : Option Name}
    {tests : List KeyTest} (h : (Pattern.mapping entries rest).keyTests? = some tests)
    (hdistinct : (Pattern.literalKeys (entries.map (·.1))).Nodup) {view : MappingView Value}
    (htests : tests.all (·.holds view) = true) : sizeFits entries.length view.size rest = true := by
  obtain ⟨literals, hkeys, rfl⟩ := keyTests?_eq_some h
  rw [List.all_append, Bool.and_eq_true] at htests
  obtain ⟨hsize, hpresent⟩ := htests
  cases rest with
  | none => simpa [sizeFits, KeyTest.holds] using hsize
  | some name =>
    have hliterals : Pattern.literalKeys (entries.map (·.1)) = literals.map Literal.mapKey := by
      rw [hkeys, Pattern.literalKeys_literals]
    have hlength : (literals.map Literal.mapKey).length = entries.length := by
      simpa using (congrArg List.length hkeys).symm
    have hcontained : ∀ key ∈ literals.map Literal.mapKey, view.containsKey key = true := by
      intro key hkey
      exact List.all_eq_true.mp hpresent (.hasKey key) (List.mem_map_of_mem hkey)
    have hle := view.length_le_size (hliterals ▸ hdistinct) hcontained
    simpa [sizeFits, ← hlength] using hle

/-- **The tests hold if the pattern gets past its checks.** What is no mapping does not. -/
theorem admitsStructure_of_keyTests? {tests : List KeyTest} (h : pattern.keyTests? = some tests)
    {clause : Clause} (hproblems : clause.structuralProblems = [])
    (hinside : clause.pattern.Contains pattern)
    {found : Option (MappingView Value)} (hlook : lookEntries value path s = .ok found t) :
    admitsStructure pattern value path s =
      .ok (found.any fun view => tests.all (·.holds view)) t := by
  cases pattern with
  | mapping entries rest =>
    rw [admitsStructure, mappingParts_eq, bind_assoc, bind_of_ok hlook]
    cases found with
    | none => rfl
    | some view =>
      obtain ⟨parts, hparts, hsome⟩ := partsAmong_of_keyTests h view
      have hfits : tests.all (·.holds view) = true → sizeFits entries.length view.size rest = true :=
        sizeFits_of_keyTests h (clause.nodup_literalKeys hproblems hinside)
      have hsame : parts.isSome = tests.all (·.holds view) := by
        rw [hsome, Bool.eq_iff_iff, Bool.and_eq_true]
        exact and_iff_right_of_imp hfits
      rw [hparts, Option.any_some, ← hsame]
      rfl
  | _ => cases h

/-! ## The tests of a lane -/

/-- A clause with a row of a lane is offered if it gets past its checks. The lane has looked already, so
    that nothing changes. -/
theorem check_of_offered {α ρ : Type} {look : MatchM (Option α)} (hlook : Looks look)
    {rows : List (Nat × ρ)} {admits : α → ρ → Bool} {index : Nat} {needs : ρ}
    (hrow : (index, needs) ∈ rows) (hsame : ∀ other, (index, other) ∈ rows → other = needs)
    {check : MatchM Bool}
    (hcheck : ∀ {found s t}, look s = .ok found t → check s = .ok (found.any (admits · needs)) t)
    {candidates : List Nat} {u : Matcher}
    (h : (look >>= fun found => pure (offered rows admits found)) s = .ok candidates t)
    (htu : Remembers t u) : check u = .ok (decide (index ∈ candidates)) u := by
  obtain ⟨found, _, hfound, hcandidates⟩ := exists_of_bind_ok h
  cases hcandidates
  rw [hcheck (hlook.again hfound htu)]
  congr 1
  cases found with
  | none => rfl
  | some found =>
    rw [Option.any_some, Bool.eq_iff_iff, decide_eq_true_iff, offered, List.mem_map]
    constructor
    · exact fun hadmits => ⟨(index, needs), List.mem_filter.mpr ⟨hrow, hadmits⟩, rfl⟩
    · rintro ⟨⟨_, other⟩, hother, rfl⟩
      obtain ⟨hother, hadmits⟩ := List.mem_filter.mp hother
      rwa [hsame other hother] at hadmits

end Matcher

namespace Statement

open Matcher

variable {statement : Statement} {index : Nat} {clause : Clause}

/-- **The tests on a clause are exact**: they say what the clause would find out itself. -/
structure TestsExact (statement : Statement) (index : Nat) (clause : Clause) : Prop where
  /-- A sequence pattern gets past its checks on the lengths that its constraint admits. -/
  lengths : ∀ {pattern constraint}, clause.pattern.Contains pattern →
    LengthConstraint.ofPattern? pattern = some constraint →
    ∀ {value path s found t}, lookElements value path s = .ok found t →
      admitsStructure pattern value path s =
        .ok (found.any fun elements => constraint.admits elements.length) t
  /-- A mapping pattern gets past its checks on the views of which all its tests hold. -/
  keys : ∀ {pattern tests}, clause.pattern.Contains pattern → pattern.keyTests? = some tests →
    ∀ {value path s found t}, lookEntries value path s = .ok found t →
      admitsStructure pattern value path s = .ok (found.any fun view => tests.all (·.holds view)) t
  /-- A lane that keeps the clause offers it if it gets past its checks, then or later. -/
  offers : ∀ limits, ∀ step ∈ (statement.compile limits).steps, index ∈ step.laned →
    ∀ {subject s candidates t}, stepCandidates subject step s = .ok candidates t →
      ∀ {u}, Remembers t u →
        admitsStructure clause.pattern subject .root u = .ok (decide (index ∈ candidates)) u

/-- The rows of a lane say of a clause what its role is. -/
theorem needs_of_roles {ρ : Type} {role : ρ → LaneRole} {rows : List (Nat × ρ)}
    (hroles : ∀ row ∈ rows, (statement.clauses.map (·.laneRole))[row.1]? = some (role row.2))
    (hclause : statement.clauses[index]? = some clause) {needs : ρ} (hrow : (index, needs) ∈ rows) :
    clause.laneRole = role needs := by
  obtain ⟨other, hother, hrole⟩ := exists_clause_of_role (hroles _ hrow)
  obtain rfl := Option.some.inj (hclause.symm.trans hother)
  exact hrole

/-- **Lanes test what clauses check**: neither is a clause without structural problems left out whose
    checks the subject would pass, nor is one offered whose checks it would not. -/
theorem testsExact_of_noProblems (hclause : statement.clauses[index]? = some clause)
    (hproblems : clause.structuralProblems = []) : statement.TestsExact index clause where
  lengths _ hpattern _ _ _ _ _ hlook := admitsStructure_of_ofPattern? hpattern hlook
  keys hinside htests _ _ _ _ _ hlook :=
    admitsStructure_of_keyTests? htests hproblems hinside hlook
  offers limits step hstep hlaned subject s candidates t h u htu := by
    cases statement.fits_compile limits step hstep with
    | clause => cases hlaned
    | sequenceLane rows _ hroles =>
      obtain ⟨⟨_, constraint⟩, hrow, rfl⟩ := List.mem_map.mp hlaned
      have hrole := needs_of_roles hroles hclause hrow
      rw [stepCandidates_sequenceLane] at h
      refine check_of_offered (looks_lookElements subject .root) hrow (fun other hother => ?_)
        (fun hlook => ?_) h htu
      · exact LaneRole.sequence.inj ((needs_of_roles hroles hclause hother).symm.trans hrole)
      · exact admitsStructure_of_ofPattern? (Clause.ofPattern?_of_laneRole hrole) hlook
    | mappingLane rows _ hroles =>
      obtain ⟨⟨_, tests⟩, hrow, rfl⟩ := List.mem_map.mp hlaned
      have hrole := needs_of_roles hroles hclause hrow
      rw [stepCandidates_mappingLane] at h
      refine check_of_offered (looks_lookEntries subject .root) hrow (fun other hother => ?_)
        (fun hlook => ?_) h htu
      · exact LaneRole.mapping.inj ((needs_of_roles hroles hclause hother).symm.trans hrole)
      · exact admitsStructure_of_keyTests? (Clause.keyTests?_of_laneRole hrole) hproblems .refl hlook

/-- The clause `{1: _, **rest}` is offered for a dict with the key `true`. -/
theorem testsExact_of_noProblems_rest :
    let clause : Clause := ⟨.mapping [(.literal (.int 1), .wildcard)] (some ⟨0⟩), none, ⟨0⟩⟩
    let statement : Statement := ⟨⟨0⟩, [clause]⟩
    let subject : Value := .dict 0 [(.bool true, .none), (.int 2, .none)]
    let start := Matcher.ofHost .initial .empty none
    statement.clauses[0]? = some clause ∧ clause.structuralProblems = [] ∧
      statement.TestsExact 0 clause ∧
      ∃ limits step candidates t, step ∈ (statement.compile limits).steps ∧ 0 ∈ step.laned ∧
        stepCandidates subject step start = .ok candidates t ∧ 0 ∈ candidates ∧
        admitsStructure clause.pattern subject .root t = .ok true t := by
  intro clause statement subject start
  have htests : statement.TestsExact 0 clause := testsExact_of_noProblems rfl rfl
  let limits : LaneLimits := ⟨1, 1⟩
  let step : PlanStep := .mappingLane [0] (.ofRows [(0, [.hasKey (.int 1)])])
  have hstep : step ∈ (statement.compile limits).steps := List.mem_singleton.mpr rfl
  have hlaned : 0 ∈ step.laned := List.mem_singleton.mpr rfl
  have hoffers : ∃ t, stepCandidates subject step start = .ok [0] t := ⟨_, rfl⟩
  obtain ⟨t, hoffers⟩ := hoffers
  refine ⟨rfl, rfl, htests, limits, step, [0], t, hstep, hlaned, hoffers, List.mem_singleton.mpr rfl, ?_⟩
  exact htests.offers limits step hstep hlaned hoffers (.refl t)

end Statement

end StructuralMatch

import Mathlib.Order.Bounds.Basic
import StructuralMatch.Pattern.Problem

/-!
# `Proofs.ProblemReport` — what the problems of a statement say

`Statement.problems` walks over the clauses and carries the first irrefutable clause along. This module
reads its answer off as a set: for each clause its structural problems, and that it cannot be reached if
an irrefutable clause stands before it.

* `shadowOf`, the first irrefutable clause, as the walk carries it
* `isStructural_of_mem_structuralProblems`: what is wrong inside a pattern is always structural
* `Statement.mem_problems_iff`, and from it the two kinds of problems apart:
  `Statement.mem_problems_of_structural` and `Statement.unreachable_mem_problems_iff`
-/

namespace StructuralMatch

/-! ## What is wrong inside a pattern -/

namespace Pattern

theorem isStructural_of_mem_starProblems {items : List Pattern} {star : Option Nat} {kind : ProblemKind}
    (h : kind ∈ starProblems items star) : kind.isStructural = true := by
  unfold starProblems at h
  split at h
  · cases h
  · split at h <;> simp at h <;> subst h <;> rfl

-- The induction follows `problems`: one lemma per function of the mutual recursion.
mutual
/-- **What is wrong inside a pattern does not depend on where its clause stands.** -/
theorem isStructural_of_mem_problems : (pattern : Pattern) → ∀ kind ∈ pattern.problems,
    kind.isStructural = true
  | .wildcard, _, h | .capture _, _, h | .literal _, _, h | .valueRef _, _, h => by
    rw [problems] at h
    cases h
  | .sequence items star, kind, h => by
    rw [problems] at h
    rcases List.mem_append.mp h with h | h
    · exact isStructural_of_mem_starProblems h
    · exact isStructural_of_mem_problemsEach items kind h
  | .mapping entries _, kind, h => by
    rw [problems] at h
    exact isStructural_of_mem_problemsEntries [] entries kind h
  | .ofClass _ positional keywords, kind, h => by
    rw [problems] at h
    rcases List.mem_append.mp h with h | h
    · exact isStructural_of_mem_problemsEach positional kind h
    · exact isStructural_of_mem_problemsKeywords keywords kind h
  | .named pattern _, kind, h => by
    rw [problems] at h
    exact isStructural_of_mem_problems pattern kind h
  | .anyOf alternatives, kind, h => by
    rw [problems] at h
    rcases List.mem_append.mp h with h | h
    · exact isStructural_of_mem_problemsEach alternatives kind h
    · split at h
      · cases List.mem_singleton.mp h
        rfl
      · cases h

theorem isStructural_of_mem_problemsEach : (patterns : List Pattern) →
    ∀ kind ∈ problemsEach patterns, kind.isStructural = true
  | [], _, h => by cases h
  | pattern :: rest, kind, h => by
    rw [problemsEach] at h
    rcases List.mem_append.mp h with h | h
    · exact isStructural_of_mem_problems pattern kind h
    · exact isStructural_of_mem_problemsEach rest kind h

theorem isStructural_of_mem_problemsEntries : (seen : List MapKey) →
    (entries : List (MappingKey × Pattern)) → ∀ kind ∈ problemsEntries seen entries,
    kind.isStructural = true
  | _, [], _, h => by cases h
  | seen, (.literal value, pattern) :: rest, kind, h => by
    rw [problemsEntries] at h
    rcases List.mem_append.mp h with h | h
    · rcases List.mem_append.mp h with h | h
      · split at h
        · cases List.mem_singleton.mp h
          rfl
        · cases h
      · exact isStructural_of_mem_problems pattern kind h
    · exact isStructural_of_mem_problemsEntries _ rest kind h
  | seen, (.computed _, pattern) :: rest, kind, h => by
    rw [problemsEntries] at h
    rcases List.mem_append.mp h with h | h
    · exact isStructural_of_mem_problems pattern kind h
    · exact isStructural_of_mem_problemsEntries seen rest kind h

theorem isStructural_of_mem_problemsKeywords : (keywords : List (Name × Pattern)) →
    ∀ kind ∈ problemsKeywords keywords, kind.isStructural = true
  | [], _, h => by cases h
  | (_, pattern) :: rest, kind, h => by
    rw [problemsKeywords] at h
    rcases List.mem_append.mp h with h | h
    · exact isStructural_of_mem_problems pattern kind h
    · exact isStructural_of_mem_problemsKeywords rest kind h
end

end Pattern

/-- Names that are bound twice are a structural problem as well. -/
theorem Clause.isStructural_of_mem_structuralProblems {clause : Clause} {kind : ProblemKind}
    (h : kind ∈ clause.structuralProblems) : kind.isStructural = true := by
  rw [structuralProblems] at h
  rcases List.mem_append.mp h with h | h
  · exact clause.pattern.isStructural_of_mem_problems kind h
  · obtain ⟨name, -, rfl⟩ := List.mem_map.mp h
    rfl

/-! ## The walk over the clauses -/

/-- The first irrefutable clause of all, given the one before position `index` and the clauses from there
    on. -/
def shadowOf (index : Nat) (shadow : Option Nat) (clauses : List Clause) : Option Nat :=
  shadow.or ((clauses.findIdx? Clause.isIrrefutable).map (index + ·))

theorem shadowOf_nil (index : Nat) (shadow : Option Nat) : shadowOf index shadow [] = shadow := by
  simp [shadowOf]

/-- One step of the walk. -/
theorem shadowOf_cons (index : Nat) (shadow : Option Nat) (clause : Clause) (rest : List Clause) :
    shadowOf index shadow (clause :: rest) =
      shadowOf (index + 1) (shadow.or (if clause.isIrrefutable then some index else none)) rest := by
  have hmove : (fun i => index + (i + 1)) = (index + 1 + ·) := by
    funext i
    omega
  unfold shadowOf
  rw [List.findIdx?_cons, Option.or_assoc]
  split
  · simp
  · simp [hmove, Function.comp_def]

/-- **The problems that the walk finds**, clause by clause. -/
theorem mem_problemsFrom {problem : Problem} {index : Nat} {shadow : Option Nat}
    {clauses : List Clause} :
    problem ∈ problemsFrom index shadow clauses ↔
      ∃ i clause, clauses[i]? = some clause ∧ problem.clause = index + i ∧
        (problem.kind ∈ clause.structuralProblems ∨
          ∃ s, shadowOf index shadow (clauses.take i) = some s ∧ problem.kind = .unreachable s) := by
  -- The walk carries the position and the first irrefutable clause, so both are general here.
  induction clauses generalizing index shadow with
  | nil => simp [problemsFrom]
  | cons clause rest ih =>
    have hhere : problem ∈ (clause.structuralProblems ++ shadow.toList.map ProblemKind.unreachable).map
        (Problem.mk index) ↔ problem.clause = index ∧
          (problem.kind ∈ clause.structuralProblems ∨
            ∃ s, shadow = some s ∧ problem.kind = .unreachable s) := by
      obtain ⟨position, kind⟩ := problem
      simp only [List.mem_map, List.mem_append, Problem.mk.injEq, Option.mem_toList]
      constructor
      · rintro ⟨_, hkind, rfl, rfl⟩
        exact ⟨rfl, hkind.imp_right fun ⟨s, hs, hs'⟩ => ⟨s, hs, hs'.symm⟩⟩
      · rintro ⟨rfl, hkind⟩
        exact ⟨kind, hkind.imp_right fun ⟨s, hs, hs'⟩ => ⟨s, hs, hs'.symm⟩, rfl, rfl⟩
    rw [problemsFrom, List.mem_append, hhere, ih]
    constructor
    · rintro (⟨hposition, hkind⟩ | ⟨i, found, hfound, hposition, hkind⟩)
      · exact ⟨0, clause, rfl, hposition, by rwa [List.take_zero, shadowOf_nil]⟩
      · refine ⟨i + 1, found, hfound, by omega, ?_⟩
        rwa [List.take_succ_cons, shadowOf_cons]
    · rintro ⟨i, found, hfound, hposition, hkind⟩
      cases i with
      | zero =>
        cases hfound
        rw [List.take_zero, shadowOf_nil] at hkind
        exact .inl ⟨hposition, hkind⟩
      | succ i =>
        rw [List.take_succ_cons, shadowOf_cons] at hkind
        exact .inr ⟨i, found, hfound, by omega, hkind⟩

/-! ## The problems of a statement -/

namespace Statement

/-- The clause at a position has no guard, and its pattern is irrefutable. -/
def AlwaysWins (statement : Statement) (index : Nat) : Prop :=
  ∃ clause, statement.clauses[index]? = some clause ∧ clause.guard = none ∧
    clause.pattern.isIrrefutable = true

/-- The position of the first clause that always wins once it is reached. -/
def shadow? (statement : Statement) : Option Nat := statement.clauses.findIdx? Clause.isIrrefutable

theorem alwaysWins_iff {statement : Statement} {index : Nat} :
    statement.AlwaysWins index ↔
      ∃ h : index < statement.clauses.length, statement.clauses[index].isIrrefutable = true := by
  simp only [AlwaysWins, List.getElem?_eq_some_iff, Clause.isIrrefutable, Bool.and_eq_true,
    Option.isNone_iff_eq_none]
  constructor
  · rintro ⟨_, ⟨hindex, rfl⟩, hwins⟩
    exact ⟨hindex, hwins⟩
  · rintro ⟨hindex, hwins⟩
    exact ⟨_, ⟨hindex, rfl⟩, hwins⟩

theorem shadow?_eq_some_iff {statement : Statement} {shadow : Nat} :
    statement.shadow? = some shadow ↔ IsLeast {index | statement.AlwaysWins index} shadow := by
  rw [shadow?, List.findIdx?_eq_some_iff_getElem]
  constructor
  · rintro ⟨hlength, hwins, hfirst⟩
    refine ⟨alwaysWins_iff.mpr ⟨hlength, hwins⟩, fun index hindex => ?_⟩
    obtain ⟨_, hindex⟩ := alwaysWins_iff.mp hindex
    exact Nat.le_of_not_lt fun hlt => hfirst index hlt hindex
  · rintro ⟨hwins, hfirst⟩
    obtain ⟨hlength, hwins⟩ := alwaysWins_iff.mp hwins
    refine ⟨hlength, hwins, fun index hlt hindex => ?_⟩
    exact Nat.not_le.mpr hlt (hfirst (alwaysWins_iff.mpr ⟨by omega, hindex⟩))

/-- **Every reported problem is a structural one of its clause, or the clause comes behind the first
    irrefutable one.** -/
theorem mem_problems_iff {statement : Statement} {problem : Problem} :
    problem ∈ statement.problems ↔
      ∃ clause, statement.clauses[problem.clause]? = some clause ∧
        (problem.kind ∈ clause.structuralProblems ∨
          ∃ s, statement.shadow? = some s ∧ s < problem.clause ∧ problem.kind = .unreachable s) := by
  have hbefore (i s : Nat) : shadowOf 0 none (statement.clauses.take i) = some s ↔
      statement.shadow? = some s ∧ s < i := by
    simp only [shadowOf, shadow?, List.findIdx?_take, Option.none_or, Nat.zero_add, Option.map_id',
      Option.bind_eq_some_iff, Option.guard_eq_some_iff, decide_eq_true_eq]
    exact ⟨fun ⟨_, hfirst, rfl, hbehind⟩ => ⟨hfirst, hbehind⟩,
      fun ⟨hfirst, hbehind⟩ => ⟨s, hfirst, rfl, hbehind⟩⟩
  unfold problems
  rw [mem_problemsFrom]
  simp only [Nat.zero_add, hbefore, and_assoc]
  constructor
  · rintro ⟨i, clause, hclause, rfl, hkind⟩
    exact ⟨clause, hclause, hkind⟩
  · rintro ⟨clause, hclause, hkind⟩
    exact ⟨_, clause, hclause, rfl, hkind⟩

/-- What is wrong with a clause itself is reported. -/
theorem mem_problems_of_structural {statement : Statement} {index : Nat} {clause : Clause}
    (hclause : statement.clauses[index]? = some clause) {kind : ProblemKind}
    (hkind : kind ∈ clause.structuralProblems) : ⟨index, kind⟩ ∈ statement.problems :=
  mem_problems_iff.mpr ⟨clause, hclause, .inl hkind⟩

/-- **A clause is reported as unreachable exactly if it comes behind the first irrefutable one**, and the
    report names that one. -/
theorem unreachable_mem_problems_iff {statement : Statement} {index shadow : Nat} :
    ⟨index, .unreachable shadow⟩ ∈ statement.problems ↔
      index < statement.clauses.length ∧ statement.shadow? = some shadow ∧ shadow < index := by
  rw [mem_problems_iff]
  constructor
  · rintro ⟨clause, hclause, hstructural | ⟨s, hshadow, hbehind, hkind⟩⟩
    · cases clause.isStructural_of_mem_structuralProblems hstructural
    · cases hkind
      exact ⟨(List.getElem?_eq_some_iff.mp hclause).1, hshadow, hbehind⟩
  · rintro ⟨hindex, hshadow, hbehind⟩
    exact ⟨_, List.getElem?_eq_getElem hindex, .inr ⟨shadow, hshadow, hbehind, rfl⟩⟩

end Statement

end StructuralMatch

import Mathlib.Data.Finset.Card
import StructuralMatch.Proofs.PlanShape

/-!
# `Proofs.LaneChunks` — how a run of mapping clauses is cut into chunks

The loop that cuts a run keeps the set of the tests of the current chunk (`Tallies`). It takes in the first
row of a chunk whatever its tests, and every other one if the budget allows it.

* `card_le_of_mem_cutByBudget` bounds the tests of a chunk, and `exists_rest_of_mem_cutByBudget` says that
  no chunk could take in the row behind it.
* `LaneRun.mem_mappingRows_ofRoles` says which rows the runs have, and `LaneRun.not_mapping_behind` that a
  run ends where it has to.
-/

namespace StructuralMatch

/-- The distinct tests of some rows. -/
def distinctTests (rows : List (Nat × List KeyTest)) : Finset KeyTest := (rows.flatMap (·.2)).toFinset

/-! ## Chunks -/

/-- **The set that the loop keeps**: the distinct tests of the chunk. -/
structure Tallies (chunk : List (Nat × List KeyTest)) (known : List KeyTest) : Prop where
  distinct : known.Nodup
  mem_iff : ∀ test, test ∈ known ↔ test ∈ chunk.flatMap (·.2)

theorem mem_addTests {known tests : List KeyTest} {test : KeyTest} :
    test ∈ addTests known tests ↔ test ∈ known ∨ test ∈ tests := by
  induction tests generalizing known with
  | nil => simp [addTests]
  | cons first rest ih =>
    rw [addTests]
    split
    · rename_i hfirst
      rw [ih, List.mem_cons]
      constructor
      · exact Or.imp_right .inr
      · rintro (hknown | rfl | hrest)
        exacts [.inl hknown, .inl hfirst, .inr hrest]
    · rw [ih, List.mem_cons, List.mem_cons, or_assoc, or_left_comm]

theorem nodup_addTests {known : List KeyTest} (h : known.Nodup) (tests : List KeyTest) :
    (addTests known tests).Nodup := by
  induction tests generalizing known with
  | nil => exact h
  | cons first rest ih =>
    rw [addTests]
    split
    · exact ih h
    · rename_i hnew
      exact ih (List.nodup_cons.mpr ⟨hnew, h⟩)

namespace Tallies

variable {chunk : List (Nat × List KeyTest)} {known : List KeyTest} {row : Nat × List KeyTest}

theorem nil : Tallies [] [] := ⟨List.nodup_nil, fun _ => Iff.rfl⟩

/-- A row that is taken in is counted. -/
theorem append (h : Tallies chunk known) (row : Nat × List KeyTest) :
    Tallies (chunk ++ [row]) (addTests known row.2) where
  distinct := nodup_addTests h.distinct row.2
  mem_iff test := by
    rw [mem_addTests, h.mem_iff, List.flatMap_append, List.mem_append, List.flatMap_singleton]

/-- What a row would bring the number of tests to. -/
theorem card_append (h : Tallies chunk known) (row : Nat × List KeyTest) :
    (distinctTests (chunk ++ [row])).card =
      known.length + (row.2.filter (· ∉ known)).toFinset.card := by
  have hunion : distinctTests (chunk ++ [row]) =
      known.toFinset ∪ (row.2.filter (· ∉ known)).toFinset := by
    ext test
    by_cases hknown : test ∈ known <;>
      simp [distinctTests, hknown, ← h.mem_iff]
  have hdisjoint : Disjoint known.toFinset (row.2.filter (· ∉ known)).toFinset := by
    refine Finset.disjoint_left.mpr fun test hknown hnew => ?_
    simp_all
  rw [hunion, Finset.card_union_of_disjoint hdisjoint, List.toFinset_card_of_nodup h.distinct]

/-- The loop counts no less, as it counts a new test as often as the row repeats it. -/
theorem card_append_le (h : Tallies chunk known) (row : Nat × List KeyTest) :
    (distinctTests (chunk ++ [row])).card ≤ known.length + row.2.countP (· ∉ known) := by
  rw [h.card_append, List.countP_eq_length_filter]
  exact Nat.add_le_add_left (List.toFinset_card_le _) _

/-- If the row repeats no test, the loop counts exactly. -/
theorem card_append_of_nodup (h : Tallies chunk known) (hrow : row.2.Nodup) :
    (distinctTests (chunk ++ [row])).card = known.length + row.2.countP (· ∉ known) := by
  rw [h.card_append, List.countP_eq_length_filter, List.toFinset_card_of_nodup (hrow.filter _)]

end Tallies

section Cutting

variable {budget : Nat} {chunk rows found : List (Nat × List KeyTest)} {known : List KeyTest}

/-- **The budget bounds every chunk** of more than one row, if it bounds the chunk that the loop is at. -/
theorem card_le_of_mem_cutByBudget (hknown : Tallies chunk known)
    (hchunk : 2 ≤ chunk.length → (distinctTests chunk).card ≤ budget)
    (h : found ∈ cutByBudget budget chunk known rows) (hlong : 2 ≤ found.length) :
    (distinctTests found).card ≤ budget := by
  induction rows generalizing chunk known with
  | nil =>
    rw [cutByBudget] at h
    split at h
    · cases h
    · obtain rfl := List.mem_singleton.mp h
      exact hchunk hlong
  | cons row rows ih =>
    rw [cutByBudget] at h
    split at h
    · rcases List.mem_cons.mp h with rfl | h
      · exact hchunk hlong
      · exact ih (Tallies.nil.append row) (fun hlong => absurd hlong (by simp)) h
    · rename_i hfits
      refine ih (hknown.append row) (fun hlong => ?_) h
      have hnonempty : chunk.isEmpty = false := by
        cases chunk with
        | nil => simp at hlong
        | cons first rest => rfl
      have hle : known.length + row.2.countP (· ∉ known) ≤ budget := by
        simpa [hnonempty] using hfits
      exact (hknown.card_append_le row).trans hle

/-- **A chunk ends with the rows, or before a row that it could not take in.** -/
theorem exists_rest_of_mem_cutByBudget (hknown : Tallies chunk known)
    (hrows : ∀ row ∈ rows, row.2.Nodup) (h : found ∈ cutByBudget budget chunk known rows) :
    ∃ before after, chunk ++ rows = before ++ found ++ after ∧
      ∀ row ∈ after.head?, budget < (distinctTests (found ++ [row])).card := by
  induction rows generalizing chunk known with
  | nil =>
    rw [cutByBudget] at h
    split at h
    · cases h
    · obtain rfl := List.mem_singleton.mp h
      exact ⟨[], [], rfl, fun row hrow => absurd hrow (Option.not_mem_none row)⟩
  | cons row rows ih =>
    obtain ⟨hrow, hrows⟩ := List.forall_mem_cons.mp hrows
    rw [cutByBudget] at h
    split at h
    · rename_i hcut
      rcases List.mem_cons.mp h with rfl | h
      · refine ⟨[], row :: rows, rfl, fun next hnext => ?_⟩
        obtain rfl := Option.some.inj hnext
        rw [hknown.card_append_of_nodup hrow]
        exact of_decide_eq_true (Bool.and_eq_true_iff.mp hcut).2
      · obtain ⟨before, after, hsplit, hafter⟩ := ih (Tallies.nil.append row) hrows h
        refine ⟨chunk ++ before, after, ?_, hafter⟩
        rw [List.append_assoc chunk, List.append_assoc chunk, ← hsplit]
        rfl
    · obtain ⟨before, after, hsplit, hafter⟩ := ih (hknown.append row) hrows h
      exact ⟨before, after, by rw [← hsplit, List.append_assoc]; rfl, hafter⟩

/-- Rows with three tests share a chunk if one test is common to both, and six are allowed. -/
example :
    let row (index size : Nat) (keys : List Int) : Nat × List KeyTest :=
      (index, .sizeIs size :: keys.map fun key => .hasKey (.int key))
    (cutByBudget 6 [] [] [row 0 2 [1, 2], row 1 2 [3, 4], row 2 2 [5, 6], row 3 1 [7]]).map
      (·.map (·.1)) = [[0, 1], [2, 3]] := by decide

end Cutting

/-! ## Runs -/

namespace LaneRun

/-- The rows of a mapping run. -/
def mappingRows : LaneRun → List (Nat × List KeyTest)
  | .mapping rows => rows
  | _ => []

/-- The chunks of a mapping run. -/
def chunks (budget : Nat) (run : LaneRun) : List (List (Nat × List KeyTest)) :=
  cutByBudget budget [] [] run.mappingRows

theorem flatten_chunks (budget : Nat) (run : LaneRun) : (run.chunks budget).flatten = run.mappingRows :=
  flatten_cutByBudget budget run.mappingRows [] []

/-- The clauses of the rows are clauses of the run. -/
theorem covers_mappingRows (run : LaneRun) : run.mappingRows.map (·.1) <:+: run.covered := by
  cases run with
  | mapping rows => exact List.infix_rfl
  | _ => exact List.nil_infix

theorem infix_of_mem_chunks {budget : Nat} {run : LaneRun} {chunk : List (Nat × List KeyTest)}
    (h : chunk ∈ run.chunks budget) : chunk.map (·.1) <:+: run.covered := by
  have hpart : chunk <:+: run.mappingRows := flatten_chunks budget run ▸ List.infix_of_mem_flatten h
  exact (hpart.map (·.1)).trans run.covers_mappingRows

theorem mem_mappingRows_cons {index : Nat} {role : LaneRole} {runs : List LaneRun}
    {row : Nat × List KeyTest} :
    row ∈ (cons index role runs).flatMap mappingRows ↔
      (row.1 = index ∧ role = .mapping row.2) ∨ row ∈ runs.flatMap mappingRows := by
  obtain ⟨first, tests⟩ := row
  unfold cons
  split <;> simp [mappingRows, eq_comm]

/-- The rows of the mapping runs are those of the mapping roles. -/
theorem mem_mappingRows_ofRoles (before roles : List LaneRole) (row : Nat × List KeyTest) :
    row ∈ (ofRoles before.length roles).flatMap mappingRows ↔
      before.length ≤ row.1 ∧ (before ++ roles)[row.1]? = some (.mapping row.2) := by
  induction roles generalizing before with
  | nil =>
    rw [List.append_nil]
    refine ⟨fun h => (nomatch h), fun ⟨hle, hrole⟩ => ?_⟩
    rw [List.getElem?_eq_none hle] at hrole
    cases hrole
  | cons role roles ih =>
    have hrest := ih (before ++ [role])
    rw [List.length_append, List.length_singleton, List.append_assoc, List.singleton_append] at hrest
    rw [ofRoles, mem_mappingRows_cons, hrest]
    have hself : (before ++ role :: roles)[before.length]? = some role := by simp
    constructor
    · rintro (⟨hindex, rfl⟩ | ⟨hle, hrole⟩)
      · exact ⟨Nat.le_of_eq hindex.symm, hindex ▸ hself⟩
      · exact ⟨Nat.le_of_succ_le hle, hrole⟩
    · rintro ⟨hle, hrole⟩
      rcases Nat.eq_or_lt_of_le hle with hindex | hlt
      · rw [← hindex, hself] at hrole
        exact .inl ⟨hindex.symm, Option.some.inj hrole⟩
      · exact .inr ⟨hlt, hrole⟩

/-- Where a mapping run comes from when a clause is put in front of the runs: it was there, or it is the
    first one, which the clause has joined or opened. -/
theorem mapping_mem_cons {index : Nat} {role : LaneRole} {runs : List LaneRun}
    {rows : List (Nat × List KeyTest)} (h : .mapping rows ∈ cons index role runs) :
    .mapping rows ∈ runs ∨ ∃ tests, role = .mapping tests ∧
      ((∃ joined rest, runs = .mapping joined :: rest ∧ rows = (index, tests) :: joined) ∨
        (∀ joined rest, runs ≠ .mapping joined :: rest) ∧ rows = [(index, tests)]) := by
  unfold cons at h
  split at h
  · exact .inl (List.mem_cons_of_mem _ ((List.mem_cons.mp h).resolve_left nofun))
  · exact .inl ((List.mem_cons.mp h).resolve_left nofun)
  · rcases List.mem_cons.mp h with heq | h
    · cases heq
      exact .inr ⟨_, rfl, .inl ⟨_, _, rfl, rfl⟩⟩
    · exact .inl (List.mem_cons_of_mem _ h)
  · rename_i hopens
    rcases List.mem_cons.mp h with heq | h
    · cases heq
      exact .inr ⟨_, rfl, .inr ⟨fun joined rest heq => hopens joined rest heq, rfl⟩⟩
    · exact .inl h
  · exact .inl ((List.mem_cons.mp h).resolve_left nofun)

theorem exists_mapping_cons (index : Nat) (tests : List KeyTest) (runs : List LaneRun) :
    ∃ rows rest, cons index (.mapping tests) runs = .mapping rows :: rest := by
  unfold cons
  split <;> simp_all

/-- **Behind a mapping run there is no mapping role.** -/
theorem not_mapping_behind (before roles : List LaneRole) {rows : List (Nat × List KeyTest)}
    (h : .mapping rows ∈ ofRoles before.length roles) {last : Nat × List KeyTest}
    (hlast : last ∈ rows.getLast?) (tests : List KeyTest) :
    (before ++ roles)[last.1 + 1]? ≠ some (.mapping tests) := by
  induction roles generalizing before rows with
  | nil => cases h
  | cons role roles ih =>
    have hlater {rows : List (Nat × List KeyTest)} (h : .mapping rows ∈ ofRoles (before.length + 1) roles)
        (hlast : last ∈ rows.getLast?) :
        (before ++ role :: roles)[last.1 + 1]? ≠ some (.mapping tests) := by
      have := ih (before ++ [role]) (by rwa [List.length_append]) hlast
      rwa [List.append_assoc] at this
    rw [ofRoles] at h
    rcases mapping_mem_cons h with h | ⟨own, rfl, ⟨joined, rest, hruns, rfl⟩ | ⟨hopens, rfl⟩⟩
    · exact hlater h hlast
    · have hjoined : .mapping joined ∈ ofRoles (before.length + 1) roles := by
        rw [hruns]
        exact List.mem_cons_self
      have hfits := fits_ofRoles (before ++ [.mapping own]) roles (.mapping joined)
        (by rwa [List.length_append])
      rw [List.getLast?_cons, List.getLast?_eq_some_getLast hfits.1] at hlast
      exact hlater hjoined (List.getLast?_eq_some_getLast hfits.1 ▸ hlast)
    -- The run has one clause. A mapping role behind it would have opened a run that it joins.
    · cases hlast
      intro hbehind
      cases roles with
      | nil => simp at hbehind
      | cons next roles =>
        obtain rfl : next = .mapping tests := by simpa using hbehind
        obtain ⟨joined, rest, hruns⟩ :=
          exists_mapping_cons (before.length + 1) tests (ofRoles (before.length + 1 + 1) roles)
        exact hopens joined rest hruns

end LaneRun

end StructuralMatch

import StructuralMatch.Plan.Length

/-!
# `Proofs.LengthDispatch` — a length finds the clauses that admit it

A dispatch answers from two tables that were filled when the plan was made. `halve_eq` says what the
search finds in a table whose entries are first not beyond, then beyond what is looked for; the tables are
of this form since their keys increase (`LengthDispatch.WellFormed`), so that both searches are exact
(`LengthDispatch.Searches`). `LengthDispatch.candidates_ofRows` says that the answer is the one that asking
each constraint would give, and `LengthDispatch.dispatch_exact` puts all this together.
-/

namespace StructuralMatch

/-! ## Sorted numbers -/

theorem mem_insertDistinct (n m : Nat) (numbers : List Nat) :
    m ∈ insertDistinct n numbers ↔ m = n ∨ m ∈ numbers := by
  induction numbers with
  | nil => simp [insertDistinct]
  | cons first rest ih =>
    rw [insertDistinct]
    split
    · simp
    · split
      · rename_i heq
        simp [heq]
      · simp only [List.mem_cons, ih]
        exact or_left_comm

theorem mem_distinctSorted (n : Nat) (numbers : List Nat) :
    n ∈ distinctSorted numbers ↔ n ∈ numbers := by
  induction numbers with
  | nil => simp [distinctSorted]
  | cons first rest ih =>
    change n ∈ insertDistinct first (distinctSorted rest) ↔ _
    rw [mem_insertDistinct, ih, List.mem_cons]

theorem pairwise_insertDistinct (n : Nat) {numbers : List Nat} (h : numbers.Pairwise (· < ·)) :
    (insertDistinct n numbers).Pairwise (· < ·) := by
  induction numbers with
  | nil => simp [insertDistinct]
  | cons first rest ih =>
    obtain ⟨hfirst, hrest⟩ := List.pairwise_cons.mp h
    rw [insertDistinct]
    split
    · rename_i hlt
      refine List.pairwise_cons.mpr ⟨?_, h⟩
      intro m hm
      rcases List.mem_cons.mp hm with rfl | hm
      · exact hlt
      · exact Nat.lt_trans hlt (hfirst m hm)
    · split
      · exact h
      · refine List.pairwise_cons.mpr ⟨?_, ih hrest⟩
        intro m hm
        rcases (mem_insertDistinct n m rest).mp hm with rfl | hm
        · omega
        · exact hfirst m hm

theorem pairwise_distinctSorted (numbers : List Nat) : (distinctSorted numbers).Pairwise (· < ·) := by
  induction numbers with
  | nil => exact List.Pairwise.nil
  | cons first rest ih => exact pairwise_insertDistinct first ih

/-- The smallest of some numbers with zero among them is zero. -/
theorem head?_distinctSorted_zero (numbers : List Nat) :
    (distinctSorted (0 :: numbers)).head? = some 0 := by
  have hmem : 0 ∈ distinctSorted (0 :: numbers) := (mem_distinctSorted _ _).mpr List.mem_cons_self
  have hsorted := pairwise_distinctSorted (0 :: numbers)
  cases hkeys : distinctSorted (0 :: numbers) with
  | nil =>
    rw [hkeys] at hmem
    cases hmem
  | cons first rest =>
    rw [hkeys] at hmem hsorted
    rcases List.mem_cons.mp hmem with hzero | hmem
    · rw [List.head?_cons, ← hzero]
    · have := (List.pairwise_cons.mp hsorted).1 0 hmem
      omega

/-! ## Search -/

section Halve

variable {α : Type} {beyond : α → Bool}

theorem mem_of_halve {table : List α} {steps : Nat} {found : α}
    (h : halve beyond table steps = some found) : found ∈ table := by
  induction steps generalizing table with
  | zero => exact List.mem_of_head? h
  | succ steps ih =>
    rw [halve] at h
    split at h
    · exact List.mem_of_head? h
    · dsimp only at h
      split at h
      · exact List.mem_of_head? h
      · rename_i middle upper hdrop
        split at h
        · exact List.mem_of_mem_take (ih h)
        · exact List.mem_of_mem_drop (hdrop ▸ ih h)

/-- **The search finds the last entry that is not beyond**, or the first entry where all are beyond. -/
theorem halve_eq (low high : List α) (hlow : ∀ a ∈ low, beyond a = false)
    (hhigh : ∀ a ∈ high, beyond a = true) {steps : Nat} (hsteps : (low ++ high).length ≤ steps + 1) :
    halve beyond (low ++ high) steps = low.getLast?.or high.head? := by
  have hshort {low high : List α} (h : (low ++ high).length ≤ 1) :
      (low ++ high).head? = low.getLast?.or high.head? := by
    match low, high with
    | [], _ => rfl
    | [a], [] => rfl
    | [_], _ :: _ => simp at h
    | _ :: _ :: _, _ => simp at h
  induction steps generalizing low high with
  | zero => exact hshort hsteps
  | succ steps ih =>
    rw [halve]
    split
    · rename_i hone
      exact hshort hone
    · rename_i hmany
      rw [List.length_append] at hsteps hmany
      simp only [List.length_append]
      generalize hhalf : (low.length + high.length) / 2 = half
      split
      · rename_i hdrop
        have := congrArg List.length hdrop
        simp only [List.length_drop, List.length_append, List.length_nil] at this
        omega
      · rename_i middle upper hdrop
        have hmiddle : (low ++ high)[half]? = some middle := by
          rw [← List.head?_drop, hdrop, List.head?_cons]
        split
        · rename_i hbeyond
          -- The middle lies in the upper part, so that the lower part is kept.
          have hle : low.length ≤ half := by
            refine Nat.le_of_not_lt fun hlt => ?_
            rw [List.getElem?_append_left hlt] at hmiddle
            rw [hlow _ (List.mem_of_getElem? hmiddle)] at hbeyond
            cases hbeyond
          rw [List.take_append, List.take_of_length_le (by omega)]
          rw [ih low _ hlow (fun a ha => hhigh a (List.mem_of_mem_take ha)) (by
            simp only [List.length_append, List.length_take]
            omega)]
          cases low with
          | nil =>
            rw [List.length_nil] at hmany hhalf ⊢
            rw [List.head?_take, if_neg (by omega)]
          | cons first rest => simp [List.getLast?_cons]
        · rename_i hbelow
          -- The middle lies in the lower part, whose last entry is kept.
          have hlt : half < low.length := by
            refine Nat.lt_of_not_le fun hge => ?_
            rw [List.getElem?_append_right hge] at hmiddle
            exact hbelow (hhigh _ (List.mem_of_getElem? hmiddle))
          rw [← hdrop, List.drop_append_of_le_length (by omega)]
          rw [ih _ high (fun a ha => hlow a (List.mem_of_mem_drop ha)) hhigh (by
            simp only [List.length_append, List.length_drop]
            omega)]
          rw [List.getLast?_drop, if_neg (by omega)]

end Halve

/-! ## Dispatch -/

namespace LengthDispatch

/-- **A well-formed dispatch**: the keys of both tables increase strictly, and the thresholds start at
    zero. -/
structure WellFormed (dispatch : LengthDispatch) : Prop where
  exact : (dispatch.exact.map (·.1)).Pairwise (· < ·)
  atLeast : (dispatch.atLeast.map (·.1)).Pairwise (· < ·)
  start : (dispatch.atLeast.map (·.1)).head? = some 0

/-- **The searches for a length are exact.** An entry is found for exactly this length if and only if the
    table has one. The search for a threshold cuts its table behind the last threshold that the length
    reaches, and finds the entry before the cut. -/
structure Searches (dispatch : LengthDispatch) (length : Nat) : Prop where
  exact : ∀ entry, (reached? dispatch.exact length).filter (·.1 = length) = some entry ↔
    entry ∈ dispatch.exact ∧ entry.1 = length
  atLeast : ∃ low entry high, dispatch.atLeast = low ++ entry :: high ∧
    (∀ other ∈ low, other.1 < entry.1) ∧ entry.1 ≤ length ∧ (∀ other ∈ high, length < other.1) ∧
    reached? dispatch.atLeast length = some entry

/-! ### Searching a table with increasing keys -/

/-- The search ends at the last entry before the cut, or at the first of all where the cut comes first. -/
theorem reached?_append {low high : List (Nat × List Nat)} {length : Nat}
    (hlow : ∀ entry ∈ low, entry.1 ≤ length) (hhigh : ∀ entry ∈ high, length < entry.1) :
    reached? (low ++ high) length = low.getLast?.or high.head? := by
  unfold reached?
  apply halve_eq low high
  · intro entry hentry
    exact decide_eq_false (Nat.not_lt.mpr (hlow entry hentry))
  · intro entry hentry
    exact decide_eq_true (hhigh entry hentry)
  · omega

/-- Either all keys lie above the length, or a last entry does not. -/
theorem exists_last_reached {table : List (Nat × List Nat)}
    (h : (table.map (·.1)).Pairwise (· < ·)) (length : Nat) :
    (∀ entry ∈ table, length < entry.1) ∨
      ∃ low entry high, table = low ++ entry :: high ∧ (∀ other ∈ low, other.1 < entry.1) ∧
        entry.1 ≤ length ∧ ∀ other ∈ high, length < other.1 := by
  induction table with
  | nil => exact .inl fun entry hentry => by cases hentry
  | cons first rest ih =>
    rw [List.map_cons, List.pairwise_cons] at h
    have hfirst : ∀ entry ∈ rest, first.1 < entry.1 :=
      fun entry hentry => h.1 _ (List.mem_map_of_mem hentry)
    rcases ih h.2 with hall | ⟨low, entry, high, rfl, hlow, hle, hhigh⟩
    · by_cases hle : first.1 ≤ length
      · exact .inr ⟨[], first, rest, rfl, by simp, hle, hall⟩
      · exact .inl (List.forall_mem_cons.mpr ⟨Nat.lt_of_not_le hle, hall⟩)
    · have hlt : first.1 < entry.1 := hfirst entry (by simp)
      exact .inr ⟨first :: low, entry, high, rfl, List.forall_mem_cons.mpr ⟨hlt, hlow⟩, hle, hhigh⟩

/-- The search finds the last entry that the length reaches. -/
theorem reached?_of_last {low high : List (Nat × List Nat)} {entry : Nat × List Nat} {length : Nat}
    (hlow : ∀ other ∈ low, other.1 < entry.1) (hle : entry.1 ≤ length)
    (hhigh : ∀ other ∈ high, length < other.1) :
    reached? (low ++ entry :: high) length = some entry := by
  have hbefore : ∀ other ∈ low ++ [entry], other.1 ≤ length := by
    intro other hother
    rcases List.mem_append.mp hother with hother | hother
    · have := hlow other hother
      omega
    · rwa [List.mem_singleton.mp hother]
  have hsearch := reached?_append hbefore hhigh
  rwa [List.getLast?_concat, Option.some_or, List.append_assoc, List.singleton_append] at hsearch

/-- The entry of a length is found if the table has one. -/
theorem filter_reached?_eq_some_iff {table : List (Nat × List Nat)}
    (h : (table.map (·.1)).Pairwise (· < ·)) {length : Nat} {found : Nat × List Nat} :
    (reached? table length).filter (·.1 = length) = some found ↔ found ∈ table ∧ found.1 = length := by
  rw [Option.filter_eq_some_iff, decide_eq_true_eq]
  constructor
  · rintro ⟨hreached, heq⟩
    exact ⟨mem_of_halve hreached, heq⟩
  · rintro ⟨hmem, rfl⟩
    refine ⟨?_, rfl⟩
    rcases exists_last_reached h found.1 with hall | ⟨low, entry, high, rfl, hlow, hle, hhigh⟩
    · exact absurd (hall found hmem) (Nat.lt_irrefl _)
    · rw [reached?_of_last hlow hle hhigh]
      -- The entries before the last one have smaller keys, and those behind it have greater ones.
      rcases List.mem_append.mp hmem with hmem | hmem
      · have := hlow found hmem
        omega
      · rcases List.mem_cons.mp hmem with rfl | hmem
        · rfl
        · exact absurd (hhigh found hmem) (Nat.lt_irrefl _)

/-- **A well-formed dispatch is searched exactly.** -/
theorem WellFormed.searches {dispatch : LengthDispatch} (h : dispatch.WellFormed) (length : Nat) :
    dispatch.Searches length where
  exact _ := filter_reached?_eq_some_iff h.exact
  atLeast := by
    rcases exists_last_reached h.atLeast length with hall | ⟨low, entry, high, htable, hlow, hle, hhigh⟩
    · obtain ⟨first, hfirst, hzero⟩ := List.mem_map.mp (List.mem_of_head? h.start)
      have := hall first hfirst
      omega
    · refine ⟨low, entry, high, htable, hlow, hle, hhigh, ?_⟩
      rw [htable, reached?_of_last hlow hle hhigh]

/-! ### The tables of some rows -/

theorem wellFormed_ofRows (rows : List (Nat × LengthConstraint)) : (ofRows rows).WellFormed where
  exact := by
    have hsorted := pairwise_distinctSorted (rows.filterMap (·.2.exactLength?))
    simpa [ofRows, Function.comp_def] using hsorted
  atLeast := by
    have hsorted := pairwise_distinctSorted (0 :: rows.filterMap (·.2.threshold?))
    simpa [ofRows, Function.comp_def] using hsorted
  start := by
    have hhead := head?_distinctSorted_zero (rows.filterMap (·.2.threshold?))
    simpa [ofRows, Function.comp_def] using hhead

/-- A constraint that is no exact length is met as far as its threshold is reached: no threshold lies
    between the last one that the length reaches and the length. -/
theorem reaches_eq_admits {rows : List (Nat × LengthConstraint)} {row : Nat × LengthConstraint}
    (hrow : row ∈ rows) {low high : List (Nat × List Nat)} {entry : Nat × List Nat} {length : Nat}
    (htable : (ofRows rows).atLeast = low ++ entry :: high) (hlow : ∀ other ∈ low, other.1 < entry.1)
    (hle : entry.1 ≤ length) (hhigh : ∀ other ∈ high, length < other.1)
    (hexact : row.2.exactLength? ≠ some length) :
    reaches entry.1 row.2 = row.2.admits length := by
  cases hconstraint : row.2 with
  | exact n =>
    rw [hconstraint] at hexact
    have hne : length ≠ n := fun heq => hexact (congrArg some heq.symm)
    simp [reaches, LengthConstraint.threshold?, LengthConstraint.admits, hne]
  | atLeast n =>
    have hmem : (n, clausesWhere rows (reaches n)) ∈ (ofRows rows).atLeast := by
      refine List.mem_map.mpr ⟨n, (mem_distinctSorted _ _).mpr (List.mem_cons_of_mem _ ?_), rfl⟩
      exact List.mem_filterMap.mpr ⟨row, hrow, by rw [hconstraint]; rfl⟩
    have hsame : n ≤ entry.1 ↔ n ≤ length := by
      constructor
      · intro hn
        omega
      · intro hn
        rw [htable] at hmem
        rcases List.mem_append.mp hmem with hmem | hmem
        · exact Nat.le_of_lt (hlow _ hmem)
        · rcases List.mem_cons.mp hmem with heq | hmem
          · exact Nat.le_of_eq (congrArg Prod.fst heq)
          · have := hhigh _ hmem
            omega
    simp [reaches, LengthConstraint.threshold?, LengthConstraint.admits, hsame]

/-- **A length finds the clauses whose constraint admits it**, in row order. -/
theorem candidates_ofRows (rows : List (Nat × LengthConstraint)) (length : Nat) :
    (ofRows rows).candidates length = clausesWhere rows (·.admits length) := by
  have hsearches := (wellFormed_ofRows rows).searches length
  unfold candidates
  cases hfound : (reached? (ofRows rows).exact length).filter (·.1 = length) with
  | some entry =>
    obtain ⟨hmem, rfl⟩ := (hsearches.exact entry).mp hfound
    obtain ⟨key, -, rfl⟩ := List.mem_map.mp hmem
    rfl
  | none =>
    have hexact : ∀ row ∈ rows, row.2.exactLength? ≠ some length := by
      intro row hrow heq
      have hlisted := (hsearches.exact (length, clausesWhere rows (·.admits length))).mpr
        ⟨List.mem_map.mpr ⟨length, (mem_distinctSorted _ _).mpr
          (List.mem_filterMap.mpr ⟨row, hrow, heq⟩), rfl⟩, rfl⟩
      rw [hfound] at hlisted
      cases hlisted
    obtain ⟨low, entry, high, htable, hlow, hle, hhigh, hreached⟩ := hsearches.atLeast
    have hentry : entry ∈ (ofRows rows).atLeast := by simp [htable]
    obtain ⟨key, -, rfl⟩ := List.mem_map.mp hentry
    simp only [hreached, Option.filter, hle, decide_true, if_true, Option.elim]
    unfold clausesWhere
    refine congrArg (List.map _) (List.filter_congr fun row hrow => ?_)
    exact reaches_eq_admits hrow htable hlow hle hhigh (hexact row hrow)

/-- Every list of clauses in the tables is part of the clauses of the rows. -/
theorem subset_of_mem_tables {rows : List (Nat × LengthConstraint)} {entry : Nat × List Nat}
    (h : entry ∈ (ofRows rows).exact ++ (ofRows rows).atLeast) : entry.2 ⊆ rows.map (·.1) := by
  have hsubset (test : LengthConstraint → Bool) : clausesWhere rows test ⊆ rows.map (·.1) :=
    (List.filter_sublist.map _).subset
  rcases List.mem_append.mp h with h | h
  · obtain ⟨length, -, rfl⟩ := List.mem_map.mp h
    exact hsubset (·.admits length)
  · obtain ⟨threshold, -, rfl⟩ := List.mem_map.mp h
    exact hsubset (reaches threshold)

/-- The candidates for a length are clauses of the rows, in row order. -/
theorem sublist_candidates_ofRows (rows : List (Nat × LengthConstraint)) (length : Nat) :
    ((ofRows rows).candidates length).Sublist (rows.map (·.1)) := by
  rw [candidates_ofRows]
  exact List.filter_sublist.map _

/-- **A dispatch gives for each length the clauses whose constraint admits it**, in row order and each as
    often as a row has it. Its tables are well-formed, so that both searches are exact. -/
theorem dispatch_exact (rows : List (Nat × LengthConstraint)) :
    (ofRows rows).WellFormed ∧ ∀ length, (ofRows rows).Searches length ∧
      (ofRows rows).candidates length = (rows.filter fun row => row.2.admits length).map (·.1) := by
  have hformed := wellFormed_ofRows rows
  exact ⟨hformed, fun length => ⟨hformed.searches length, candidates_ofRows rows length⟩⟩

end LengthDispatch

end StructuralMatch

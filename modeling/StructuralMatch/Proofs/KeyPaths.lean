import Mathlib.Data.List.Nodup
import StructuralMatch.Proofs.KeyTree

/-!
# `Proofs.KeyPaths` — no path of a tree asks what it knows

An answer establishes a fact, and no later fact undoes it (`KeyFacts.decide?_assume_self` and
`KeyFacts.decide?_assume_of_known`). Two results rest on these two lemmas.

* A tree may also be built by looking at the first row from its beginning again after each answer
  (`KeyTree.Builds`). The rows do not get fewer then, but the unknown tests do: the recursion comes to an
  end on all rows, with the tree of the rows (`KeyTree.builds_iff`).
* On every path each test is asked while its outcome is unknown (`KeyFacts.Informs`). What is asked twice,
  or is asked although it follows from what was answered, is not unknown (`KeyTree.frugal_ofRows`).
-/

namespace StructuralMatch

/-- The answers on a path: tests and their outcomes, the first one first. -/
abbrev Answers := List (KeyTest × Bool)

/-! ## Facts -/

namespace KeyFacts

variable {facts : KeyFacts} {test other : KeyTest} {known : Bool}

/-- **An answer is known from then on.** -/
theorem decide?_assume_self (hunknown : facts.decide? test = .none) (outcome : Bool) :
    (facts.assume test outcome).decide? test = some outcome := by
  cases test with
  | hasKey key =>
    have hnew : key ∉ facts.present := fun hmem => by simp [decide?, hmem] at hunknown
    cases outcome <;> simp [assume, decide?, hnew]
  | sizeIs n =>
    have hsize : facts.size = .none := by
      cases hsize : facts.size with
      | none => rfl
      | some size => simp [decide?, hsize] at hunknown
    cases outcome <;> simp [assume, decide?, hsize]

/-- An answer on a key says nothing about other keys. -/
theorem decide?_hasKey_assume_of_ne {key new : MapKey} (h : key ≠ new) (outcome : Bool) :
    (facts.assume (.hasKey new) outcome).decide? (.hasKey key) = facts.decide? (.hasKey key) := by
  have hold {keys : List MapKey} : key ∈ new :: keys ↔ key ∈ keys :=
    List.mem_cons.trans (or_iff_right h)
  cases outcome with
  | true => exact if_congr hold rfl rfl
  | false => exact if_congr Iff.rfl rfl (if_congr hold rfl rfl)

/-- A size is ruled out by another answer on the size, or by too many present keys. -/
theorem decide?_sizeIs_of_ruledOut {n : Nat} (hsize : facts.size = .none)
    (hruled : n ∈ facts.otherSizes ∨ n < facts.present.length) :
    facts.decide? (.sizeIs n) = some false := by
  simp only [decide?, hsize]
  exact if_pos hruled

/-- **No answer undoes what is known.** The one case with an argument is a size that is ruled out already:
    the size that is found is another one, as it was not ruled out. -/
theorem decide?_assume_of_known (hunknown : facts.decide? test = .none) (outcome : Bool)
    (hknown : facts.decide? other = some known) :
    (facts.assume test outcome).decide? other = some known := by
  cases other with
  | hasKey key =>
    cases test with
    | sizeIs n => cases outcome <;> exact hknown
    | hasKey new =>
      have hne : key ≠ new := fun heq => by simp [← heq, hknown] at hunknown
      rwa [decide?_hasKey_assume_of_ne hne]
  | sizeIs m =>
    cases hsize : facts.size with
    | some size =>
      cases test with
      | sizeIs n => simp [decide?, hsize] at hunknown
      | hasKey new => cases outcome <;> simpa [assume, decide?, hsize] using hknown
    | none =>
      simp only [decide?, hsize, Option.ite_none_right_eq_some, Option.some.injEq] at hknown
      obtain ⟨hruled, rfl⟩ := hknown
      cases test with
      | hasKey new =>
        cases outcome with
        | true => exact decide?_sizeIs_of_ruledOut hsize (hruled.imp_right Nat.lt_succ_of_lt)
        | false => exact decide?_sizeIs_of_ruledOut hsize hruled
      | sizeIs n =>
        cases outcome with
        | true =>
          have hne : n ≠ m := by
            rintro rfl
            rw [decide?_sizeIs_of_ruledOut hsize hruled] at hunknown
            cases hunknown
          exact congrArg some (decide_eq_false hne)
        | false =>
          exact decide?_sizeIs_of_ruledOut hsize (hruled.imp_left (List.mem_cons_of_mem n))

/-- The facts after some answers. -/
def after (facts : KeyFacts) (answers : Answers) : KeyFacts :=
  answers.foldl (fun facts answer => facts.assume answer.1 answer.2) facts

/-- **Every answer is news**: its test is unknown below the facts and the answers before it. -/
def Informs (facts : KeyFacts) : Answers → Prop
  | [] => True
  | (test, outcome) :: later => facts.decide? test = .none ∧ (facts.assume test outcome).Informs later

variable {before later answers : Answers}

/-- What is known is not asked. -/
theorem Informs.unasked (h : facts.Informs answers) (hknown : facts.decide? test = some known) :
    test ∉ answers.map (·.1) := by
  induction answers generalizing facts with
  | nil => exact List.not_mem_nil
  | cons answer later ih =>
    obtain ⟨hunknown, hlater⟩ := h
    intro hmem
    rcases List.mem_cons.mp hmem with rfl | hmem
    · rw [hknown] at hunknown
      cases hunknown
    · exact ih hlater (decide?_assume_of_known hunknown _ hknown) hmem

theorem Informs.nodup (h : facts.Informs answers) : (answers.map (·.1)).Nodup := by
  induction answers generalizing facts with
  | nil => exact List.nodup_nil
  | cons answer later ih =>
    obtain ⟨hunknown, hlater⟩ := h
    exact List.nodup_cons.mpr ⟨hlater.unasked (decide?_assume_self hunknown _), ih hlater⟩

/-- After some answers the others are news below the facts that these have established. -/
theorem Informs.below (h : facts.Informs (before ++ later)) : (facts.after before).Informs later := by
  induction before generalizing facts with
  | nil => exact h
  | cons answer before ih => exact ih h.2

theorem subset_present_after (facts : KeyFacts) (answers : Answers) :
    facts.present ⊆ (facts.after answers).present := by
  induction answers generalizing facts with
  | nil => exact List.Subset.refl _
  | cons answer later ih =>
    refine List.Subset.trans ?_ (ih (facts.assume answer.1 answer.2))
    obtain ⟨test, outcome⟩ := answer
    cases test <;> cases outcome <;> simp [assume]

/-- A key that was found present is among the present ones. -/
theorem mem_present_after {key : MapKey} (h : (.hasKey key, true) ∈ answers) :
    key ∈ (facts.after answers).present := by
  induction answers generalizing facts with
  | nil => cases h
  | cons answer later ih =>
    rcases List.mem_cons.mp h with rfl | h
    · exact subset_present_after (facts.assume (.hasKey key) true) later List.mem_cons_self
    · exact ih h

/-- **No size is asked for below the size.** -/
theorem Informs.no_size_after_size {n m : Nat} {outcome : Bool}
    (h : facts.Informs (before ++ (.sizeIs n, true) :: later)) : (.sizeIs m, outcome) ∉ later := by
  have hbelow : ((facts.after before).assume (.sizeIs n) true).Informs later := h.below.2
  have hknown : ((facts.after before).assume (.sizeIs n) true).decide? (.sizeIs m) =
      some (decide (n = m)) := rfl
  exact fun hmem => hbelow.unasked hknown (List.mem_map_of_mem hmem)

/-- **No size is asked for below more present keys than it counts.** -/
theorem Informs.keys_le_size {n : Nat} {outcome : Bool}
    (h : facts.Informs (before ++ (.sizeIs n, outcome) :: later)) {keys : List MapKey}
    (hdistinct : keys.Nodup) (hpresent : ∀ key ∈ keys, (.hasKey key, true) ∈ before) :
    keys.length ≤ n := by
  have hunknown : (facts.after before).decide? (.sizeIs n) = .none := h.below.1
  have hroom : ¬ n < (facts.after before).present.length := by
    intro hfew
    cases hsize : (facts.after before).size <;> simp [decide?, hsize, hfew] at hunknown
  have hsubset : keys ⊆ (facts.after before).present :=
    fun key hkey => mem_present_after (hpresent key hkey)
  exact Nat.le_trans (hdistinct.length_le_of_subset hsubset) (Nat.not_lt.mp hroom)

end KeyFacts

namespace KeyTree

variable {clause : Nat} {next : KeyFacts → KeyTree} {test : KeyTest} {tests : List KeyTest}
  {rows : List (Nat × List KeyTest)} {facts : KeyFacts} {tree : KeyTree} {answers : Answers}
  {offered : List Nat}

/-! ## Building a tree from the first row again -/

/-- **The recursion on rows that begins with the first row after every answer.** A row with a test that is
    known to fail is dropped, and one whose tests are all known to hold is offered. Otherwise the first
    unknown test is asked, and both branches are built from the same rows with one more fact. -/
inductive Builds : List (Nat × List KeyTest) → KeyFacts → KeyTree → Prop
  | empty {facts : KeyFacts} : Builds [] facts .exhausted
  | refuted {clause : Nat} {tests : List KeyTest} {rows : List (Nat × List KeyTest)} {facts : KeyFacts}
      {tree : KeyTree} : (∃ test ∈ tests, facts.decide? test = some false) → Builds rows facts tree →
      Builds ((clause, tests) :: rows) facts tree
  | proven {clause : Nat} {tests : List KeyTest} {rows : List (Nat × List KeyTest)} {facts : KeyFacts}
      {next : KeyTree} : (∀ test ∈ tests, facts.decide? test = some true) → Builds rows facts next →
      Builds ((clause, tests) :: rows) facts (.candidate clause next)
  | split {clause : Nat} {tests : List KeyTest} {rows : List (Nat × List KeyTest)} {facts : KeyFacts}
      {test : KeyTest} {pass fail : KeyTree} : (∀ test ∈ tests, facts.decide? test ≠ some false) →
      tests.find? (facts.decide? · = none) = some test →
      Builds ((clause, tests) :: rows) (facts.assume test true) pass →
      Builds ((clause, tests) :: rows) (facts.assume test false) fail →
      Builds ((clause, tests) :: rows) facts (.ask test pass fail)

/-- The recursion builds one tree at most. -/
theorem Builds.unique {other : KeyTree} (h : Builds rows facts tree) (hother : Builds rows facts other) :
    tree = other := by
  -- What is known of the tests of the first row excludes all rules but one.
  have hclash {facts : KeyFacts} {test : KeyTest} {tests : List KeyTest}
      (hall : ∀ test ∈ tests, facts.decide? test = some true)
      (hfind : tests.find? (facts.decide? · = none) = some test) : False := by
    have hunknown : facts.decide? test = none := by simpa using List.find?_some hfind
    rw [hall test (List.mem_of_find?_eq_some hfind)] at hunknown
    cases hunknown
  induction h generalizing other with
  | empty =>
    cases hother
    rfl
  | refuted hfails _ ih =>
    obtain ⟨failing, hmem, hfails⟩ := hfails
    cases hother with
    | refuted _ hother => exact ih hother
    | proven hall _ =>
      have := hall failing hmem
      rw [hfails] at this
      cases this
    | split hnone _ _ _ => exact absurd hfails (hnone failing hmem)
  | proven hall _ ih =>
    cases hother with
    | refuted hfails _ =>
      obtain ⟨failing, hmem, hfails⟩ := hfails
      rw [hall failing hmem] at hfails
      cases hfails
    | proven _ hother => rw [ih hother]
    | split _ hfind _ _ => exact (hclash hall hfind).elim
  | split hnone hfind _ _ ihpass ihfail =>
    cases hother with
    | refuted hfails _ =>
      obtain ⟨failing, hmem, hfails⟩ := hfails
      exact absurd hfails (hnone failing hmem)
    | proven hall _ => exact (hclash hall hfind).elim
    | split _ hfind' hpass hfail =>
      obtain rfl := Option.some.inj (hfind.symm.trans hfind')
      rw [ihpass hpass, ihfail hfail]

/-- **A row that is looked at again** has the tests in front that are known to hold by now. The induction is
    on the tests behind them. -/
theorem builds_ofRow {clause : Nat} {rows : List (Nat × List KeyTest)}
    (hrows : ∀ facts, Builds rows facts (ofRowsUnder rows facts)) (done tests : List KeyTest)
    (facts : KeyFacts) (hdone : ∀ test ∈ done, facts.decide? test = some true) :
    Builds ((clause, done ++ tests) :: rows) facts (ofRow clause (ofRowsUnder rows) tests facts) := by
  induction tests generalizing done facts with
  | nil =>
    rw [List.append_nil, ofRow]
    exact .proven hdone (hrows facts)
  | cons test rest ih =>
    have hassoc : done ++ test :: rest = (done ++ [test]) ++ rest := by simp
    rcases ofRow_cons_cases clause (ofRowsUnder rows) test rest facts with
      ⟨⟨failing, hmem, hfails⟩, htree⟩ | ⟨hholds, htree⟩ | ⟨hnone, hunknown, htree⟩
    · rw [htree]
      exact .refuted ⟨failing, List.mem_append_right done hmem, hfails⟩ (hrows facts)
    · rw [htree, hassoc]
      exact ih (done ++ [test]) facts
        (List.forall_mem_append.mpr ⟨hdone, List.forall_mem_singleton.mpr hholds⟩)
    · rw [htree]
      refine .split ?_ ?_ ?_ ?_
      · refine List.forall_mem_append.mpr ⟨fun other hother => ?_, hnone⟩
        simp [hdone other hother]
      · have hfront : done.find? (facts.decide? · = none) = none :=
          List.find?_eq_none.mpr fun other hother => by simp [hdone other hother]
        simp [List.find?_append, hfront, hunknown]
      · rw [hassoc]
        refine ih (done ++ [test]) (facts.assume test true) (List.forall_mem_append.mpr ⟨?_, ?_⟩)
        · exact fun other hother => KeyFacts.decide?_assume_of_known hunknown true (hdone other hother)
        · exact List.forall_mem_singleton.mpr (KeyFacts.decide?_assume_self hunknown true)
      · exact .refuted ⟨test, by simp, KeyFacts.decide?_assume_self hunknown false⟩
          (hrows (facts.assume test false))

theorem builds_ofRowsUnder (rows : List (Nat × List KeyTest)) (facts : KeyFacts) :
    Builds rows facts (ofRowsUnder rows facts) := by
  induction rows generalizing facts with
  | nil => exact .empty
  | cons row rows ih => exact builds_ofRow ih [] row.2 facts fun _ h => nomatch h

/-- **The recursion comes to an end on all rows and facts**, with the tree of the rows. -/
theorem builds_iff : Builds rows facts tree ↔ tree = ofRowsUnder rows facts := by
  constructor
  · exact fun h => h.unique (builds_ofRowsUnder rows facts)
  · rintro rfl
    exact builds_ofRowsUnder rows facts

/-! ## Trails -/

/-- **A root-to-leaf path** with the answers that lead along it and the clauses that it offers. -/
inductive Trail : KeyTree → Answers → List Nat → Prop
  | exhausted : Trail .exhausted [] []
  | candidate {clause : Nat} {next : KeyTree} {answers : Answers} {offered : List Nat} :
      Trail next answers offered → Trail (.candidate clause next) answers (clause :: offered)
  | pass {question : KeyTest} {pass fail : KeyTree} {answers : Answers} {offered : List Nat} :
      Trail pass answers offered → Trail (.ask question pass fail) ((question, true) :: answers) offered
  | fail {question : KeyTest} {pass fail : KeyTree} {answers : Answers} {offered : List Nat} :
      Trail fail answers offered → Trail (.ask question pass fail) ((question, false) :: answers) offered

/-- A trail is a path that keeps its answers. -/
theorem Trail.path (h : tree.Trail answers offered) : tree.Path offered := by
  induction h with
  | exhausted => exact .exhausted
  | candidate _ ih => exact .candidate ih
  | pass _ ih => exact .pass trivial ih
  | fail _ ih => exact .fail trivial ih

theorem exists_trail (tree : KeyTree) : ∃ answers offered, tree.Trail answers offered := by
  induction tree with
  | exhausted => exact ⟨[], [], .exhausted⟩
  | candidate clause next ih =>
    obtain ⟨answers, offered, hnext⟩ := ih
    exact ⟨answers, clause :: offered, .candidate hnext⟩
  | ask question pass fail ih _ =>
    obtain ⟨answers, offered, hpass⟩ := ih
    exact ⟨(question, true) :: answers, offered, .pass hpass⟩

/-- A row asks unknown tests, and these are its own. -/
theorem informs_of_trail_ofRow {later : List KeyTest}
    (hnext : ∀ facts answers offered, (next facts).Trail answers offered →
      facts.Informs answers ∧ ∀ answer ∈ answers, answer.1 ∈ later)
    (h : (ofRow clause next tests facts).Trail answers offered) :
    facts.Informs answers ∧ ∀ answer ∈ answers, answer.1 ∈ tests ++ later := by
  have hlater (tests : List KeyTest) {facts : KeyFacts} {answers : Answers} {offered : List Nat}
      (h : (next facts).Trail answers offered) :
      facts.Informs answers ∧ ∀ answer ∈ answers, answer.1 ∈ tests ++ later := by
    obtain ⟨hinforms, hmem⟩ := hnext facts answers offered h
    exact ⟨hinforms, fun answer hanswer => List.mem_append_right tests (hmem answer hanswer)⟩
  induction tests generalizing facts answers offered with
  | nil =>
    rw [ofRow] at h
    cases h with
    | candidate htrail => exact hlater [] htrail
  | cons test rest ih =>
    rcases ofRow_cons_cases clause next test rest facts with
      ⟨-, htree⟩ | ⟨-, htree⟩ | ⟨-, hunknown, htree⟩ <;> rw [htree] at h
    · exact hlater (test :: rest) h
    · obtain ⟨hinforms, hmem⟩ := ih h
      exact ⟨hinforms, fun answer hanswer => List.mem_cons_of_mem test (hmem answer hanswer)⟩
    · cases h with
      | pass htrail =>
        obtain ⟨hinforms, hmem⟩ := ih htrail
        refine ⟨⟨hunknown, hinforms⟩, List.forall_mem_cons.mpr ⟨List.mem_cons_self, ?_⟩⟩
        exact fun answer hanswer => List.mem_cons_of_mem test (hmem answer hanswer)
      | fail htrail =>
        obtain ⟨hinforms, hmem⟩ := hlater (test :: rest) htrail
        exact ⟨⟨hunknown, hinforms⟩, List.forall_mem_cons.mpr ⟨List.mem_cons_self, hmem⟩⟩

/-- **Every path asks unknown tests only**, and these are tests of the rows. -/
theorem informs_of_trail_ofRowsUnder (h : (ofRowsUnder rows facts).Trail answers offered) :
    facts.Informs answers ∧ ∀ answer ∈ answers, answer.1 ∈ rows.flatMap (·.2) := by
  induction rows generalizing facts answers offered with
  | nil =>
    cases h
    exact ⟨trivial, fun _ hanswer => nomatch hanswer⟩
  | cons row rows ih =>
    rw [List.flatMap_cons]
    exact informs_of_trail_ofRow (fun facts answers offered htrail => ih htrail) h

/-! ## Rows and their nodes -/

/-- A tree with other names for the clauses. -/
def relabel (label : Nat → Nat) : KeyTree → KeyTree
  | .ask question pass fail => .ask question (pass.relabel label) (fail.relabel label)
  | .candidate clause next => .candidate (label clause) (next.relabel label)
  | .exhausted => .exhausted

theorem relabel_ofRow (label : Nat → Nat) (clause : Nat) (next : KeyFacts → KeyTree)
    (tests : List KeyTest) (facts : KeyFacts) :
    (ofRow clause next tests facts).relabel label =
      ofRow (label clause) (fun facts => (next facts).relabel label) tests facts := by
  induction tests generalizing facts with
  | nil => rfl
  | cons test rest ih =>
    rw [ofRow, ofRow]
    split
    · rfl
    · split
      · exact ih facts
      · rw [relabel, ih]

/-- **The tree does not depend on the names of the clauses.** -/
theorem relabel_ofRowsUnder (label : Nat → Nat) (rows : List (Nat × List KeyTest)) (facts : KeyFacts) :
    (ofRowsUnder rows facts).relabel label =
      ofRowsUnder (rows.map fun row => (label row.1, row.2)) facts := by
  induction rows generalizing facts with
  | nil => rfl
  | cons row rows ih =>
    rw [ofRowsUnder, relabel_ofRow, funext ih]
    rfl

/-- A trail of a tree with other names is a trail of the tree. -/
theorem exists_trail_of_relabel {label : Nat → Nat} (h : (tree.relabel label).Trail answers offered) :
    ∃ clauses, tree.Trail answers clauses ∧ offered = clauses.map label := by
  induction tree generalizing answers offered with
  | exhausted =>
    cases h
    exact ⟨[], .exhausted, rfl⟩
  | candidate clause next ih =>
    cases h with
    | candidate htrail =>
      obtain ⟨clauses, hclauses, rfl⟩ := ih htrail
      exact ⟨clause :: clauses, .candidate hclauses, rfl⟩
  | ask question pass fail ihpass ihfail =>
    cases h with
    | pass htrail =>
      obtain ⟨clauses, hclauses, rfl⟩ := ihpass htrail
      exact ⟨clauses, .pass hclauses, rfl⟩
    | fail htrail =>
      obtain ⟨clauses, hclauses, rfl⟩ := ihfail htrail
      exact ⟨clauses, .fail hclauses, rfl⟩

/-- The rows, each named by its position. -/
def numbered (rows : List (Nat × List KeyTest)) : List (Nat × List KeyTest) :=
  rows.zipIdx.map fun row => (row.2, row.1.2)

theorem map_fst_numbered (rows : List (Nat × List KeyTest)) :
    (numbered rows).map (·.1) = List.range rows.length := by
  rw [numbered, List.map_map, List.range_eq_range']
  exact List.zipIdx_map_snd 0 rows

/-- The clause of the row at a position. -/
def clauseAt (rows : List (Nat × List KeyTest)) (position : Nat) : Nat :=
  (rows[position]?.map (·.1)).getD 0

/-- The positions of rows are names for their clauses. -/
theorem relabel_numbered (rows : List (Nat × List KeyTest)) :
    (ofRows (numbered rows)).relabel (clauseAt rows) = ofRows rows := by
  have hrows : (numbered rows).map (fun row => (clauseAt rows row.1, row.2)) = rows := by
    refine List.ext_getElem (by simp [numbered]) fun position hposition hlt => ?_
    simp [numbered, clauseAt, List.getElem?_eq_getElem hlt]
  rw [ofRows, relabel_ofRowsUnder, hrows]
  rfl

/-- **Each row is offered once at most** on a path, and in row order. The nodes of a path are told apart by
    the positions of the rows that they come from, as rows may share a clause. -/
theorem exists_positions_of_trail (h : (ofRows rows).Trail answers offered) :
    ∃ positions : List Nat, (ofRows (numbered rows)).Trail answers positions ∧
      positions.Pairwise (· < ·) ∧ offered.map some = positions.map fun position =>
        rows[position]?.map (·.1) := by
  rw [← relabel_numbered rows] at h
  obtain ⟨positions, htrail, rfl⟩ := exists_trail_of_relabel h
  have hsublist : positions.Sublist (List.range rows.length) :=
    map_fst_numbered rows ▸ sublist_of_walk_ofRows htrail.path
  refine ⟨positions, htrail, List.pairwise_lt_range.sublist hsublist, ?_⟩
  rw [List.map_map]
  refine List.map_congr_left fun position hposition => ?_
  have hlt : position < rows.length := List.mem_range.mp (hsublist.subset hposition)
  simp [clauseAt, List.getElem?_eq_getElem hlt]

/-! ## Trees that ask nothing twice -/

/-- **A tree that asks nothing twice**, for some rows. -/
structure Frugal (rows : List (Nat × List KeyTest)) (tree : KeyTree) : Prop where
  /-- The recursion that begins with the first row after every answer comes to an end with this tree. -/
  built : ∀ other, Builds rows .none other ↔ other = tree
  /-- No test is asked twice on a path. -/
  nodup : ∀ {answers offered}, tree.Trail answers offered → (answers.map (·.1)).Nodup
  /-- Where the size was found, no test on the size is asked any more. -/
  no_size_after_size : ∀ {before later offered n m outcome},
    tree.Trail (before ++ (.sizeIs n, true) :: later) offered → (.sizeIs m, outcome) ∉ later
  /-- Where a size is asked for, no more different keys were found than it counts. -/
  keys_le_size : ∀ {before later offered n outcome} {keys : List MapKey},
    tree.Trail (before ++ (.sizeIs n, outcome) :: later) offered → keys.Nodup →
    (∀ key ∈ keys, (.hasKey key, true) ∈ before) → keys.length ≤ n
  /-- Each row has one node at most among those that offer a clause. -/
  offered_once : ∀ {answers offered}, tree.Trail answers offered →
    ∃ positions : List Nat, (ofRows (numbered rows)).Trail answers positions ∧
      positions.Pairwise (· < ·) ∧ offered.map some = positions.map fun position =>
        rows[position]?.map (·.1)

/-- **The tree of any rows asks nothing twice**, whatever tests these repeat, also within a row, and however
    they contradict each other. -/
theorem frugal_ofRows (rows : List (Nat × List KeyTest)) : (ofRows rows).Frugal rows where
  built _ := builds_iff
  nodup h := (informs_of_trail_ofRowsUnder h).1.nodup
  no_size_after_size h := (informs_of_trail_ofRowsUnder h).1.no_size_after_size
  keys_le_size h := (informs_of_trail_ofRowsUnder h).1.keys_le_size
  offered_once := exists_positions_of_trail

/-- A row that asks for one size twice and then for another is never offered, after one question. -/
example : ofRows [(0, [.sizeIs 1, .sizeIs 1, .sizeIs 2])] = .ask (.sizeIs 1) .exhausted .exhausted := by
  decide

end KeyTree

end StructuralMatch

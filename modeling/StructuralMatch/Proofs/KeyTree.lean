import StructuralMatch.Plan.KeyTree
import StructuralMatch.Proofs.View

/-!
# `Proofs.KeyTree` — a tree offers the clauses whose tests all hold

A decision tree leaves out tests whose outcome is known on the branch. The invariant is that the facts of
a branch are true of the view that takes it (`KeyFacts.Sound`). Only one of them needs an argument: a
size is ruled out once more keys are present than it counts, since different keys find different
entries.

* `KeyTree.candidates_ofRows` says which clauses a tree offers to a view.
* `KeyTree.walk_ofRows` says the same of a walk down the tree (`KeyTree.Walk`) that goes by what the
  entries of a mapping say.
* `KeyTree.sublist_of_walk_ofRows` says what is left of it on any path (`KeyTree.Path`).
-/

namespace StructuralMatch

variable {V : Type}

/-! ## Tests -/

/-- Whether the entries of a mapping pass a test: some key has the identity, or the entries are so many. -/
def KeyTest.metBy (keyOf : V → Option MapKey) (entries : List (V × V)) : KeyTest → Bool
  | .hasKey key => entries.any fun entry => keyOf entry.1 = some key
  | .sizeIs size => entries.length = size

/-- A view passes the tests that its entries pass. -/
theorem KeyTest.holds_ofEntries (keyOf : V → Option MapKey) (entries : List (V × V)) (test : KeyTest) :
    test.holds (.ofEntries keyOf entries) = test.metBy keyOf entries := by
  cases test with
  | hasKey key => exact MappingView.containsKey_ofEntries keyOf entries key
  | sizeIs size => rw [holds, metBy, MappingView.size_ofEntries]

/-- The keys of a mapping pattern that has tests are literals. -/
theorem keys_of_literals {entries : List (MappingKey × Pattern)} {literals : List Literal}
    (h : entries.mapM (·.1.literal?) = some literals) :
    entries.map (·.1) = literals.map MappingKey.literal := by
  induction entries generalizing literals with
  | nil =>
    cases h
    rfl
  | cons entry entries ih =>
    rw [List.mapM_cons] at h
    obtain ⟨literal, hliteral, h⟩ := Option.bind_eq_some_iff.mp h
    obtain ⟨rest, hrest, h⟩ := Option.bind_eq_some_iff.mp h
    cases h
    rw [List.map_cons, List.map_cons, ih hrest]
    refine congrArg (· :: _) ?_
    obtain ⟨key, pattern⟩ := entry
    cases key with
    | literal constant =>
      cases hliteral
      rfl
    | computed expr => cases hliteral

/-- The tests of a mapping pattern are one on the size, without a rest name, and one on each key. -/
theorem keyTests?_eq_some {entries : List (MappingKey × Pattern)} {rest : Option Name}
    {tests : List KeyTest} (h : (Pattern.mapping entries rest).keyTests? = some tests) :
    ∃ literals : List Literal, entries.map (·.1) = literals.map .literal ∧
      tests = (if rest.isNone then [.sizeIs entries.length] else []) ++
        (literals.map Literal.mapKey).map .hasKey := by
  simp only [Pattern.keyTests?] at h
  obtain ⟨literals, hliterals, h⟩ := Option.bind_eq_some_iff.mp h
  cases h
  refine ⟨literals, keys_of_literals hliterals, ?_⟩
  rw [List.map_map]
  rfl

/-! ## Facts -/

namespace KeyFacts

/-- **The facts are true of a view.** -/
structure Sound (view : MappingView V) (facts : KeyFacts) : Prop where
  present : ∀ key ∈ facts.present, view.containsKey key = true
  distinct : facts.present.Nodup
  absent : ∀ key ∈ facts.absent, view.containsKey key = false
  size : ∀ n, facts.size = some n → view.size = n
  otherSizes : ∀ n ∈ facts.otherSizes, view.size ≠ n

variable {view : MappingView V} {facts : KeyFacts}

theorem Sound.none : Sound view KeyFacts.none where
  present _ h := by cases h
  distinct := List.nodup_nil
  absent _ h := by cases h
  size _ h := by cases h
  otherSizes _ h := by cases h

/-- An outcome that is known is the outcome. -/
theorem Sound.decided (h : facts.Sound view) {test : KeyTest} {outcome : Bool}
    (hdecide : facts.decide? test = some outcome) : test.holds view = outcome := by
  cases test with
  | hasKey key =>
    simp only [decide?] at hdecide
    split at hdecide
    · rename_i hmem
      cases hdecide
      exact h.present key hmem
    · split at hdecide
      · rename_i hmem
        cases hdecide
        exact h.absent key hmem
      · cases hdecide
  | sizeIs n =>
    simp only [decide?] at hdecide
    split at hdecide
    · rename_i size hsize
      cases hdecide
      rw [KeyTest.holds, h.size size hsize]
    · split at hdecide
      · rename_i hother
        cases hdecide
        have hne : view.size ≠ n := by
          rcases hother with hother | hfew
          · exact h.otherSizes n hother
          · have := view.length_le_size h.distinct h.present
            omega
        simpa [KeyTest.holds] using hne
      · cases hdecide

/-- A test that is not known to hold and not known to fail is unknown. -/
theorem decide?_eq_none {test : KeyTest} (hfails : facts.decide? test ≠ some false)
    (hholds : facts.decide? test ≠ some true) : facts.decide? test = Option.none := by
  cases hdecide : facts.decide? test with
  | none => rfl
  | some outcome =>
    cases outcome with
    | true => exact absurd hdecide hholds
    | false => exact absurd hdecide hfails

/-- The outcome of a test that was not known is a true fact. -/
theorem Sound.assume (h : facts.Sound view) {test : KeyTest}
    (hunknown : facts.decide? test = Option.none) : (facts.assume test (test.holds view)).Sound view := by
  cases test with
  | hasKey key =>
    simp only [decide?] at hunknown
    cases hholds : (KeyTest.hasKey key).holds view with
    | true =>
      have hnew : key ∉ facts.present := by
        intro hmem
        rw [if_pos hmem] at hunknown
        cases hunknown
      exact { h with
        present := List.forall_mem_cons.mpr ⟨hholds, h.present⟩
        distinct := List.nodup_cons.mpr ⟨hnew, h.distinct⟩ }
    | false => exact { h with absent := List.forall_mem_cons.mpr ⟨hholds, h.absent⟩ }
  | sizeIs n =>
    cases hholds : (KeyTest.sizeIs n).holds view with
    | true =>
      have hsize : view.size = n := of_decide_eq_true hholds
      exact { h with size := fun m hm => hsize.trans (Option.some.inj hm) }
    | false =>
      have hsize : view.size ≠ n := of_decide_eq_false hholds
      exact { h with otherSizes := List.forall_mem_cons.mpr ⟨hsize, h.otherSizes⟩ }

end KeyFacts

/-! ## Trees -/

namespace KeyTree

variable {view : MappingView V}

/-- **What the tree of a row does first**: it passes the row over, or goes on to the next test, or asks. -/
theorem ofRow_cons_cases (clause : Nat) (next : KeyFacts → KeyTree) (test : KeyTest)
    (tests : List KeyTest) (facts : KeyFacts) :
    ((∃ failing ∈ test :: tests, facts.decide? failing = some false) ∧
      ofRow clause next (test :: tests) facts = next facts) ∨
    (facts.decide? test = some true ∧
      ofRow clause next (test :: tests) facts = ofRow clause next tests facts) ∨
    ((∀ other ∈ test :: tests, facts.decide? other ≠ some false) ∧ facts.decide? test = none ∧
      ofRow clause next (test :: tests) facts =
        .ask test (ofRow clause next tests (facts.assume test true)) (next (facts.assume test false))) := by
  rw [ofRow]
  split
  · rename_i hany
    obtain ⟨failing, hmem, hfails⟩ := List.any_eq_true.mp hany
    exact .inl ⟨⟨failing, hmem, of_decide_eq_true hfails⟩, rfl⟩
  · rename_i hany
    have hnone : ∀ other ∈ test :: tests, facts.decide? other ≠ some false := fun other hmem hfails =>
      hany (List.any_eq_true.mpr ⟨other, hmem, decide_eq_true hfails⟩)
    split
    · rename_i hholds
      exact .inr (.inl ⟨hholds, rfl⟩)
    · rename_i hholds
      exact .inr (.inr ⟨hnone, KeyFacts.decide?_eq_none (hnone test List.mem_cons_self) hholds, rfl⟩)

/-- **A row offers its clause where all its tests hold**, and goes on in any case. -/
theorem candidates_ofRow (clause : Nat) {next : KeyFacts → KeyTree} {later : List Nat}
    (hnext : ∀ facts : KeyFacts, facts.Sound view → (next facts).candidates (·.holds view) = later)
    (tests : List KeyTest) (facts : KeyFacts) (hfacts : facts.Sound view) :
    (ofRow clause next tests facts).candidates (·.holds view) =
      if tests.all (·.holds view) then clause :: later else later := by
  induction tests generalizing facts with
  | nil => simp [ofRow, candidates, hnext facts hfacts]
  | cons test rest ih =>
    rcases ofRow_cons_cases clause next test rest facts with
      ⟨⟨failing, hmem, hfails⟩, htree⟩ | ⟨hknown, htree⟩ | ⟨-, hunknown, htree⟩ <;> rw [htree]
    -- A test is known to fail: the row is passed over.
    · have hfails := hfacts.decided hfails
      have hall : ¬ (test :: rest).all (·.holds view) = true := fun hall => by
        rw [List.all_eq_true.mp hall failing hmem] at hfails
        cases hfails
      rw [if_neg hall, hnext facts hfacts]
    -- The test is known to hold: it gets no node.
    · rw [ih facts hfacts, List.all_cons, hfacts.decided hknown, Bool.true_and]
    -- Each branch of the node may take the outcome that leads to it for a fact.
    · have hassumed := hfacts.assume hunknown
      rw [candidates, List.all_cons]
      cases hholds : test.holds view with
      | true =>
        rw [hholds] at hassumed
        simpa using ih _ hassumed
      | false =>
        rw [hholds] at hassumed
        simpa using hnext _ hassumed

theorem candidates_ofRowsUnder (rows : List (Nat × List KeyTest)) (facts : KeyFacts)
    (hfacts : facts.Sound view) :
    (ofRowsUnder rows facts).candidates (·.holds view) =
      (rows.filter fun row => row.2.all (·.holds view)).map (·.1) := by
  induction rows generalizing facts with
  | nil => rfl
  | cons row rows ih =>
    obtain ⟨clause, tests⟩ := row
    rw [ofRowsUnder, candidates_ofRow clause ih tests facts hfacts, List.filter_cons]
    split <;> rfl

/-- **A tree offers the clauses of the rows whose tests all hold**, in row order. -/
theorem candidates_ofRows (view : MappingView V) (rows : List (Nat × List KeyTest)) :
    (ofRows rows).candidates (·.holds view) =
      (rows.filter fun row => row.2.all (·.holds view)).map (·.1) :=
  candidates_ofRowsUnder rows .none .none

/-! ## Walks -/

/-- **A walk down a tree to its end.** At a test it goes on where the outcome is allowed. Every clause
    that it comes to is offered, fails, and is left behind. -/
inductive Walk (allowed : KeyTest → Bool → Prop) : KeyTree → List Nat → Prop
  | exhausted : Walk allowed .exhausted []
  | candidate {clause : Nat} {next : KeyTree} {offered : List Nat} : Walk allowed next offered →
      Walk allowed (.candidate clause next) (clause :: offered)
  | pass {question : KeyTest} {pass fail : KeyTree} {offered : List Nat} : allowed question true →
      Walk allowed pass offered → Walk allowed (.ask question pass fail) offered
  | fail {question : KeyTest} {pass fail : KeyTree} {offered : List Nat} : allowed question false →
      Walk allowed fail offered → Walk allowed (.ask question pass fail) offered

/-- **Where the outcomes are given there is one walk**, and it offers the candidates. -/
theorem walk_iff (holds : KeyTest → Bool) (tree : KeyTree) (offered : List Nat) :
    Walk (fun test outcome => holds test = outcome) tree offered ↔ offered = tree.candidates holds := by
  constructor
  · intro h
    induction h with
    | exhausted => rfl
    | candidate _ ih => rw [candidates, ih]
    | pass houtcome _ ih => rw [candidates, houtcome, if_pos rfl, ih]
    | fail houtcome _ ih => rw [candidates, houtcome, if_neg Bool.false_ne_true, ih]
  · rintro rfl
    induction tree with
    | exhausted => exact .exhausted
    | candidate clause next ih => exact .candidate ih
    | ask question pass fail ihpass ihfail =>
      rw [candidates]
      cases houtcome : holds question with
      | true => exact .pass houtcome ihpass
      | false => exact .fail houtcome ihfail

/-- **A walk offers the clauses of the rows whose tests all hold**, each row once and in row order, and
    then the tree is exhausted. What holds of the view of some entries is what the entries say. -/
theorem walk_ofRows (keyOf : V → Option MapKey) (entries : List (V × V))
    (rows : List (Nat × List KeyTest)) :
    let view := MappingView.ofEntries keyOf entries
    let passing := (rows.filter fun row => row.2.all (·.holds view)).map (·.1)
    (∀ offered, Walk (fun test outcome => test.holds view = outcome) (ofRows rows) offered ↔
      offered = passing) ∧
    (ofRows rows).candidates (·.holds view) = passing ∧
    ∀ test : KeyTest, test.holds view = test.metBy keyOf entries := by
  intro view passing
  have hcandidates : (ofRows rows).candidates (·.holds view) = passing := candidates_ofRows view rows
  refine ⟨fun offered => ?_, hcandidates, KeyTest.holds_ofEntries keyOf entries⟩
  rw [walk_iff (·.holds view), hcandidates]

/-! ## Paths -/

/-- The clauses that occur in a tree. -/
def clauses : KeyTree → List Nat
  | .ask _ pass fail => pass.clauses ++ fail.clauses
  | .candidate clause next => clause :: next.clauses
  | .exhausted => []

/-- **A root-to-leaf path**: a walk that may take either branch of a test. -/
abbrev Path : KeyTree → List Nat → Prop := Walk fun _ _ => True

theorem exists_path (tree : KeyTree) : ∃ offered, tree.Path offered := by
  induction tree with
  | exhausted => exact ⟨[], .exhausted⟩
  | candidate clause next ih =>
    obtain ⟨offered, hnext⟩ := ih
    exact ⟨clause :: offered, .candidate hnext⟩
  | ask question pass fail ih _ =>
    obtain ⟨offered, hpass⟩ := ih
    exact ⟨offered, .pass trivial hpass⟩

/-- Every clause of a tree lies on some path. -/
theorem exists_path_of_mem_clauses {tree : KeyTree} {index : Nat} (h : index ∈ tree.clauses) :
    ∃ offered, tree.Path offered ∧ index ∈ offered := by
  induction tree with
  | exhausted => cases h
  | candidate clause next ih =>
    rcases List.mem_cons.mp h with rfl | h
    · obtain ⟨offered, hnext⟩ := exists_path next
      exact ⟨index :: offered, .candidate hnext, List.mem_cons_self⟩
    · obtain ⟨offered, hnext, hmem⟩ := ih h
      exact ⟨clause :: offered, .candidate hnext, List.mem_cons_of_mem _ hmem⟩
  | ask question pass fail ihpass ihfail =>
    rcases List.mem_append.mp h with h | h
    · obtain ⟨offered, hpass, hmem⟩ := ihpass h
      exact ⟨offered, .pass trivial hpass, hmem⟩
    · obtain ⟨offered, hfail, hmem⟩ := ihfail h
      exact ⟨offered, .fail trivial hfail, hmem⟩

variable {allowed : KeyTest → Bool → Prop}

/-- A walk through the tree of a row offers its clause at most, before what comes next. -/
theorem sublist_of_walk_ofRow {clause : Nat} {next : KeyFacts → KeyTree} {later : List Nat}
    (hnext : ∀ facts offered, Walk allowed (next facts) offered → offered.Sublist later)
    {tests : List KeyTest} {facts : KeyFacts} {offered : List Nat}
    (h : Walk allowed (ofRow clause next tests facts) offered) : offered.Sublist (clause :: later) := by
  induction tests generalizing facts offered with
  | nil =>
    rw [ofRow] at h
    cases h with
    | candidate hwalk => exact (hnext facts _ hwalk).cons_cons clause
  | cons test rest ih =>
    rcases ofRow_cons_cases clause next test rest facts with ⟨-, htree⟩ | ⟨-, htree⟩ | ⟨-, -, htree⟩ <;>
      rw [htree] at h
    · exact (hnext facts offered h).cons clause
    · exact ih h
    · cases h with
      | pass _ hwalk => exact ih hwalk
      | fail _ hwalk => exact (hnext _ offered hwalk).cons clause

/-- **Every walk offers clauses of the rows in row order**, whatever the outcomes of the tests. -/
theorem sublist_of_walk_ofRows {rows : List (Nat × List KeyTest)} {offered : List Nat}
    (h : Walk allowed (ofRows rows) offered) : offered.Sublist (rows.map (·.1)) := by
  unfold ofRows at h
  generalize KeyFacts.none = facts at h
  induction rows generalizing facts offered with
  | nil =>
    cases h
    exact List.Sublist.refl []
  | cons row rows ih =>
    obtain ⟨clause, tests⟩ := row
    exact sublist_of_walk_ofRow (fun facts offered hwalk => ih facts hwalk) h

/-- The clauses of a tree are clauses of its rows. -/
theorem subset_clauses_ofRows (rows : List (Nat × List KeyTest)) :
    (ofRows rows).clauses ⊆ rows.map (·.1) := by
  intro index hindex
  obtain ⟨offered, hpath, hmem⟩ := exists_path_of_mem_clauses hindex
  exact (sublist_of_walk_ofRows hpath).subset hmem

end KeyTree

end StructuralMatch

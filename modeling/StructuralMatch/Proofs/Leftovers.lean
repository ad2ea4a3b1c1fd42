import StructuralMatch.Proofs.BoundNames
import StructuralMatch.Proofs.DeadClauses
import StructuralMatch.Proofs.Rollback
import StructuralMatch.Proofs.Trials

/-!
# `Proofs.Leftovers` — what a clause that fails leaves bound

A clause fails because its pattern does or because its guard does not hold. In the second case its bindings
are dropped, in the first case they are not: `[x, 2]` leaves `x` bound on `[1, 3]`. Which patterns leave
nothing behind can be read off the tree.

* `Conduct` is what is known about a trial beforehand: whether it may fail, whether a match binds something,
  and whether a failure leaves something bound. `Conduct.andThen` is the conduct of two trials in turn.
* `Pattern.isTidy` says that a pattern leaves nothing behind if it fails, by the conduct of its parts, and
  `tidy_matchPattern` that this is so.
* The main result is `leftovers_of_failed_clause`.
-/

namespace StructuralMatch

/-! ## Conduct -/

/-- What is known about a trial beforehand. -/
structure Conduct where
  /-- A failure leaves the bindings as they were. -/
  tidy : Bool
  /-- A match binds nothing. -/
  silent : Bool
  /-- The trial does not fail. -/
  sure : Bool
deriving DecidableEq, Repr

namespace Conduct

/-- No trial at all. -/
def still : Conduct := ⟨true, true, true⟩

/-- A test binds nothing, but it may fail. -/
def test : Conduct := ⟨true, true, false⟩

/-- Two trials in turn. If the second one fails, the bindings of the first are left. -/
def andThen (first second : Conduct) : Conduct where
  tidy := first.tidy && (first.silent && second.tidy || second.sure)
  silent := first.silent && second.silent
  sure := first.sure && second.sure

theorem andThen_still (conduct : Conduct) : conduct.andThen .still = conduct := by
  cases conduct
  simp [andThen, still]

end Conduct

namespace Pattern

/-- Whether no choice of alternatives binds a name. -/
def bindsNothing (pattern : Pattern) : Bool := pattern.nameChoices.all (·.isEmpty)

mutual
/-- Whether the pattern leaves the bindings as they were if it fails. Alternatives always do. The sole
    sub-pattern of a class pattern may stand for the value itself, and then the attributes for the keywords
    are fetched behind it and may be missing. -/
def isTidy : Pattern → Bool
  | .wildcard | .capture _ | .literal _ | .valueRef _ | .anyOf _ => true
  | .sequence items _ => (conductEach items).tidy
  | .mapping entries _ => (conductEntries entries).tidy
  | .ofClass _ positional keywords =>
    ((conductEach positional).andThen
      (if positional.length = 1 ∧ keywords ≠ [] then Conduct.test.andThen (conductKeywords keywords)
        else conductKeywords keywords)).tidy
  | .named pattern _ => isTidy pattern

/-- The conduct of patterns that are matched in turn. -/
def conductEach : List Pattern → Conduct
  | [] => .still
  | pattern :: rest =>
    Conduct.andThen ⟨isTidy pattern, pattern.bindsNothing, pattern.isIrrefutable⟩ (conductEach rest)

/-- The conduct of the entries of a mapping pattern. -/
def conductEntries : List (MappingKey × Pattern) → Conduct
  | [] => .still
  | (_, pattern) :: rest =>
    Conduct.andThen ⟨isTidy pattern, pattern.bindsNothing, pattern.isIrrefutable⟩ (conductEntries rest)

/-- The conduct of keyword sub-patterns. -/
def conductKeywords : List (Name × Pattern) → Conduct
  | [] => .still
  | (_, pattern) :: rest =>
    Conduct.andThen ⟨isTidy pattern, pattern.bindsNothing, pattern.isIrrefutable⟩ (conductKeywords rest)
end

/-- The conduct of a pattern. -/
def conduct (pattern : Pattern) : Conduct :=
  ⟨pattern.isTidy, pattern.bindsNothing, pattern.isIrrefutable⟩

end Pattern

namespace Matcher

variable {value : Value} {path : AccessPath} {s t u : Matcher}

/-! ## The judgement -/

/-- A failure of the trial leaves the bindings as they were. -/
def Tidy (trial : MatchM Bool) (s : Matcher) : Prop :=
  ∀ t, trial s = .ok false t → t.bindings = s.bindings

/-- **The judgement.** From the state `s` the trial keeps to a conduct. -/
structure Follows (trial : MatchM Bool) (s : Matcher) (conduct : Conduct) : Prop where
  tidy : conduct.tidy = true → Tidy trial s
  silent : conduct.silent = true → ∀ t, trial s = .ok true t → t.bindings = s.bindings
  sure : conduct.sure = true → ∀ t, trial s ≠ .ok false t

/-- What binds nothing may come first. -/
theorem Tidy.after {α : Type} {x : MatchM α} {f : α → MatchM Bool} {Q : α → Matcher → Prop}
    (hx : Leads (fun _ => True) SameBindings (fun _ _ _ => True) x s Q)
    (hf : ∀ a t, x s = .ok a t → Q a t → Tidy (f a) t) : Tidy (x >>= f) s := by
  intro u hrun
  obtain ⟨a, t, hxs, hft⟩ := exists_of_bind_ok hrun
  obtain ⟨-, hkeeps, hQ⟩ := hx.of_ok trivial hxs
  have hbefore : t.bindings = s.bindings := hkeeps
  exact (hf a t hxs hQ u hft).trans hbefore

/-- An answer binds nothing. -/
theorem Tidy.answer {matched : Bool} : Tidy (pure matched) s := by
  intro t hrun
  cases hrun
  rfl

theorem Tidy.descend {trial : MatchM Bool} (h : ∀ t, Tidy trial t) : Tidy (Matcher.descend trial) s := by
  intro t hrun
  obtain ⟨u, htrial, rfl⟩ := exists_of_descend_ok hrun
  exact h { s with depth := s.depth + 1 } u htrial

namespace Follows

variable {trial next : MatchM Bool} {first second : Conduct}

/-- A match that takes nothing keeps to any conduct. -/
theorem passes {conduct : Conduct} : Follows (pure true) s conduct where
  tidy _ := .answer
  silent _ t hrun := by
    cases hrun
    rfl
  sure _ t hrun := by cases hrun

theorem fails {conduct : Conduct} (h : conduct.sure = false) : Follows (pure false) s conduct where
  tidy _ := .answer
  silent _ t hrun := by cases hrun
  sure hsure := by simp [h] at hsure

/-- An error answers nothing. -/
theorem raise {e : MatchError} {conduct : Conduct} : Follows (throw e) s conduct where
  tidy _ t hrun := by cases hrun
  silent _ t hrun := by cases hrun
  sure _ t hrun := by cases hrun

/-- **Two trials in turn.** If the first one fails, it has to tidy up for itself. If the second one fails,
    the first one has matched, and what it has bound stays. -/
theorem goOn (hfirst : Follows trial s first)
    (hsecond : ∀ t, trial s = .ok true t → Follows next t second) :
    Follows (do if ← trial then next else return false) s (first.andThen second) where
  silent h u hrun := by
    simp only [Conduct.andThen, Bool.and_eq_true] at h
    obtain ⟨passed, t, htrial, hrest⟩ := exists_of_bind_ok hrun
    cases passed with
    | false => cases hrest
    | true =>
      have hbefore : t.bindings = s.bindings := hfirst.silent h.1 t htrial
      exact ((hsecond t htrial).silent h.2 u hrest).trans hbefore
  sure h u hrun := by
    simp only [Conduct.andThen, Bool.and_eq_true] at h
    obtain ⟨passed, t, htrial, hrest⟩ := exists_of_bind_ok hrun
    cases passed with
    | false => exact hfirst.sure h.1 t htrial
    | true => exact (hsecond t htrial).sure h.2 u hrest
  tidy h u hrun := by
    simp only [Conduct.andThen, Bool.and_eq_true, Bool.or_eq_true] at h
    obtain ⟨htidy, hlater⟩ := h
    obtain ⟨passed, t, htrial, hrest⟩ := exists_of_bind_ok hrun
    cases passed with
    | false =>
      cases hrest
      exact hfirst.tidy htidy u htrial
    | true =>
      rcases hlater with ⟨hsilent, hnext⟩ | hsure
      · have hbefore : t.bindings = s.bindings := hfirst.silent hsilent t htrial
        exact ((hsecond t htrial).tidy hnext u hrest).trans hbefore
      · exact absurd hrest ((hsecond t htrial).sure hsure u)

/-- A trial that is not made does no harm. -/
theorem behind (first : Conduct) (h : Follows trial s second) :
    Follows trial s (first.andThen second) := by
  have hturn : Follows (do if ← pure true then trial else return false) s (first.andThen second) :=
    .goOn .passes fun t hrun => by
      cases hrun
      exact h
  simpa only [pure_bind, if_true] using hturn

/-- What binds nothing may come first. -/
theorem after {α : Type} {x : MatchM α} {f : α → MatchM Bool} {Q : α → Matcher → Prop}
    {conduct : Conduct} (hx : Leads (fun _ => True) SameBindings (fun _ _ _ => True) x s Q)
    (hf : ∀ a t, Follows (f a) t conduct) : Follows (x >>= f) s conduct where
  tidy h := .after hx fun a t _ _ => (hf a t).tidy h
  silent h u hrun := by
    obtain ⟨a, t, hxs, hft⟩ := exists_of_bind_ok hrun
    have hbefore : t.bindings = s.bindings := (hx.of_ok trivial hxs).2.1
    exact ((hf a t).silent h u hft).trans hbefore
  sure h u hrun := by
    obtain ⟨a, t, _, hft⟩ := exists_of_bind_ok hrun
    exact (hf a t).sure h u hft

/-- **The conduct of a pattern**, once it is known to be tidy: what a match binds is one of its choices of
    names, and an irrefutable pattern does not fail. -/
theorem of_tidy {pattern : Pattern} {value : Value} {path : AccessPath} {s : Matcher}
    (h : pattern.isTidy = true → Tidy (matchPattern pattern value path) s) :
    Follows (matchPattern pattern value path) s pattern.conduct where
  tidy := h
  silent hsilent t hrun := by
    obtain ⟨added, hslots, hnames⟩ := exists_added_of_match hrun
    have hnone : added = [] := by
      have hempty := List.all_eq_true.mp hsilent _ hnames
      simpa using hempty
    show Bindings.mk t.bindings.slots = ⟨s.bindings.slots⟩
    rw [hslots, hnone, List.append_nil]
  sure hsure t := matchPattern_ne_false pattern hsure value path s t

end Follows

/-! ## Patterns -/

-- The induction follows the matcher. Alternatives need none, since each of them is cut back.
mutual
/-- **A tidy pattern leaves nothing behind if it fails.** -/
theorem tidy_matchPattern : (pattern : Pattern) → pattern.isTidy = true → (value : Value) →
    (path : AccessPath) → (s : Matcher) → Tidy (matchPattern pattern value path) s
  | .wildcard, _, value, path, s => by
    rw [matchPattern]
    exact .descend fun t => .answer
  | .capture name, h, value, path, s => fun t hrun =>
    absurd hrun (matchPattern_ne_false (.capture name) rfl value path s t)
  | .literal constant, _, value, path, s => by
    rw [matchPattern]
    exact .descend fun t u hrun =>
      (SameBindings.evolution.matchLiteral constant value t).rel_of_ok hrun
  | .valueRef expr, _, value, path, s => by
    rw [matchPattern]
    exact .descend fun t u hrun => (SameBindings.evolution.matchValueRef expr value t).rel_of_ok hrun
  | .sequence items star, h, value, path, s => by
    rw [Pattern.isTidy] at h
    rw [matchPattern]
    refine .descend fun t => ?_
    refine .after (SameBindings.evolution.sequenceTargets items.length star value path t)
      fun targets u _ _ => ?_
    cases targets with
    | none => exact .answer
    | some targets => exact (follows_matchItems items targets path u).tidy h
  | .mapping entries rest, h, value, path, s => by
    rw [Pattern.isTidy] at h
    rw [matchPattern]
    refine .descend fun t => ?_
    have hmapping := SameBindings.evolution.mappingParts (entries.map (·.1)) rest value path t
    refine .after hmapping fun found u _ _ => ?_
    cases found with
    | none => exact .answer
    | some found =>
      obtain ⟨parts, left⟩ := found
      -- Once the entries match, nothing can fail any more.
      intro w hrun
      obtain ⟨passed, v, hentries, hrest⟩ := exists_of_bind_ok hrun
      cases passed with
      | false =>
        cases hrest
        exact (follows_matchEntries entries parts path u).tidy h w hentries
      | true =>
        obtain ⟨_, x, _, hdone⟩ := exists_of_bind_ok hrest
        cases hdone
  | .ofClass type positional keywords, h, value, path, s => by
    rw [Pattern.isTidy] at h
    rw [matchPattern]
    refine .descend fun t => ?_
    refine .after (SameBindings.evolution.isInstance value type t) fun isInstance u hask _ => ?_
    cases isInstance with
    | false => exact .answer
    | true =>
      rw [if_neg (by simp)]
      split
      · exact .answer
      · have hclass := SameBindings.evolution.classTargets trivial hask positional.length
          (keywords.map (·.1)) path
        refine .after hclass fun targets v _ hfits => ?_
        cases targets with
        | none => exact .answer
        | itself =>
          obtain ⟨hone, kind, had, hmode⟩ := hfits
          refine Follows.tidy (.goOn (follows_matchItself positional hone value path v) fun w _ => ?_) h
          have hattributes := SameBindings.evolution.attributeParts (SameBindings.admitted had w) type
            (.inl ⟨hmode, rfl⟩) (keywords.map (·.1)) path
          by_cases hkeywords : keywords = []
          · subst hkeywords
            rw [if_neg (by simp)]
            exact .passes
          · rw [if_pos ⟨hone, hkeywords⟩]
            refine .after hattributes fun found x => ?_
            cases found with
            | none => exact .fails rfl
            | some found => exact (follows_matchKeywords keywords found.2 path x).behind .test
        | parts first second =>
          have hitems := follows_matchItems positional (first.map .part) path v
          refine Follows.tidy (.goOn hitems fun w _ => ?_) h
          have hkeywords := follows_matchKeywords keywords second path w
          split
          · exact hkeywords.behind .test
          · exact hkeywords
  | .named inner name, h, value, path, s => by
    rw [Pattern.isTidy] at h
    rw [matchPattern]
    refine .descend fun t u hrun => ?_
    obtain ⟨passed, v, hinner, hrest⟩ := exists_of_bind_ok hrun
    cases passed with
    | false =>
      cases hrest
      exact tidy_matchPattern inner h value path t u hinner
    | true => cases hrest
  | .anyOf alternatives, _, value, path, s => by
    rw [matchPattern]
    exact .descend fun t u hrun => (samePlace_of_matchFirst hrun).bindings

theorem follows_matchItself : (patterns : List Pattern) → patterns.length = 1 → (value : Value) →
    (path : AccessPath) → (s : Matcher) →
    Follows (matchItself patterns value path) s (Pattern.conductEach patterns)
  | [pattern], _, value, path, s => by
    rw [matchItself, Pattern.conductEach, Pattern.conductEach, Conduct.andThen_still]
    exact .of_tidy fun h => tidy_matchPattern pattern h value path s

theorem follows_matchItems : (patterns : List Pattern) → (targets : List Target) →
    (path : AccessPath) → (s : Matcher) →
    Follows (matchItems patterns targets path) s (Pattern.conductEach patterns)
  | [], targets, path, s => by
    rw [matchItems]
    exact .passes
  | pattern :: rest, [], path, s => by
    rw [matchItems]
    exact .raise
  | pattern :: rest, .part part :: targets, path, s => by
    rw [matchItems]
    exact .goOn (.of_tidy fun h => tidy_matchPattern pattern h part.value _ s) fun t _ =>
      follows_matchItems rest targets path t
  | pattern :: rest, .slice start items :: targets, path, s => by
    rw [matchItems]
    split
    -- A wildcard is not matched with a new list.
    · exact (follows_matchItems rest targets path s).behind _
    · exact .after (SameBindings.evolution.newList items s) fun value t =>
        .goOn (.of_tidy fun h => tidy_matchPattern pattern h value _ t) fun u _ =>
          follows_matchItems rest targets path u

theorem follows_matchEntries : (entries : List (MappingKey × Pattern)) → (parts : List Part) →
    (path : AccessPath) → (s : Matcher) →
    Follows (matchEntries entries parts path) s (Pattern.conductEntries entries)
  | [], parts, path, s => by
    rw [matchEntries]
    exact .passes
  | entry :: rest, [], path, s => by
    rw [matchEntries]
    exact .raise
  | (_, pattern) :: rest, part :: parts, path, s => by
    rw [matchEntries]
    exact .goOn (.of_tidy fun h => tidy_matchPattern pattern h part.value _ s) fun t _ =>
      follows_matchEntries rest parts path t

theorem follows_matchKeywords : (keywords : List (Name × Pattern)) → (parts : List Part) →
    (path : AccessPath) → (s : Matcher) →
    Follows (matchKeywords keywords parts path) s (Pattern.conductKeywords keywords)
  | [], parts, path, s => by
    rw [matchKeywords]
    exact .passes
  | keyword :: rest, [], path, s => by
    rw [matchKeywords]
    exact .raise
  | (_, pattern) :: rest, part :: parts, path, s => by
    rw [matchKeywords]
    exact .goOn (.of_tidy fun h => tidy_matchPattern pattern h part.value _ s) fun t _ =>
      follows_matchKeywords rest parts path t
end

/-! ## Clauses -/

section Clauses

variable {statement : Statement} {subject : Value} {index : Nat} {clause : Clause}

/-- **A clause that fails** has a pattern that fails, and then it stops there, or a guard that does not hold,
    and then no bindings are left. -/
theorem failed_or_empty (hclause : statement.clauses[index]? = some clause)
    (hrun : tryClause statement subject index s = .ok none t) :
    matchPattern clause.pattern subject .root s.cleared = .ok false t ∨
      (∃ u, matchPattern clause.pattern subject .root s.cleared = .ok true u) ∧
        t.bindings = .empty := by
  have htried := tried_tryClause statement subject index s
  generalize tryClause statement subject index s = result at hrun htried
  cases htried with
  | noClause hnone =>
    rw [hclause] at hnone
    cases hnone
  | raised _ _ => cases hrun
  | failed hsome hfails =>
    cases hrun
    rw [hclause] at hsome
    cases hsome
    exact .inl hfails
  | unguarded _ _ _ => cases hrun
  | guarded hsome _ hmatch =>
    rw [hclause] at hsome
    cases hsome
    obtain ⟨passed, v, _, hrest⟩ := exists_of_bind_ok hrun
    -- The bindings are dropped before the answer is given.
    obtain ⟨_, w, hreset, hdone⟩ := exists_of_bind_ok hrest
    cases hreset
    injection hdone with _ hend
    exact .inr ⟨⟨_, hmatch⟩, by rw [← hend]⟩

/-- A tidy pattern leaves nothing behind, however its clause fails. -/
theorem empty_of_tidy (hclause : statement.clauses[index]? = some clause)
    (htidy : clause.pattern.isTidy = true)
    (hrun : tryClause statement subject index s = .ok none t) : t.bindings = .empty := by
  rcases failed_or_empty hclause hrun with hfails | ⟨_, hempty⟩
  · exact tidy_matchPattern clause.pattern htidy subject .root s.cleared t hfails
  · exact hempty

/-- A clause that wins says so. -/
theorem tryClause_ne_noMatch (s t : Matcher) :
    tryClause statement subject index s ≠ .ok (some .noMatch) t := by
  intro hrun
  have htried := tried_tryClause statement subject index s
  generalize tryClause statement subject index s = result at hrun htried
  cases htried with
  | noClause _ | raised _ _ | failed _ _ => cases hrun
  | unguarded _ _ _ => cases hrun
  | guarded _ _ _ =>
    obtain ⟨passed, v, _, hrest⟩ := exists_of_bind_ok hrun
    obtain ⟨_, w, _, hdone⟩ := exists_of_bind_ok hrest
    cases passed <;> cases hdone

/-- A search that finds nothing ends where its last clause failed. -/
theorem exists_last_tried {before : List Nat} {last : Nat}
    (hrun : tryEach statement subject (before ++ [last]) s = .ok none t) :
    ∃ u, tryClause statement subject last u = .ok none t := by
  rw [tryEach_append] at hrun
  obtain ⟨first, u, _, hrest⟩ := exists_of_bind_ok hrun
  cases first with
  | some outcome => cases hrest
  | none =>
    obtain ⟨found, v, htry, hdone⟩ := exists_of_bind_ok hrest
    cases found with
    | some outcome => cases hdone
    | none =>
      cases hdone
      exact ⟨u, htry⟩

/-- **A statement that no clause wins ends where its last clause failed.** -/
theorem exists_last_failed (hne : statement.clauses ≠ [])
    (hrun : runInOrder statement subject s = .ok .noMatch t) :
    ∃ u, tryClause statement subject (statement.clauses.length - 1) u = .ok none t := by
  obtain ⟨found, v, heach, hdone⟩ := exists_of_bind_ok hrun
  injection hdone with houtcome hend
  subst hend
  cases found with
  | some outcome =>
    have hcourse := course_tryEach statement subject (List.range statement.clauses.length) s
    rw [heach] at hcourse
    obtain ⟨_, trial, _, hwins⟩ := hcourse.exists_last_of_won
    rw [Option.getD_some] at houtcome
    rw [houtcome] at hwins
    exact absurd hwins (tryClause_ne_noMatch trial.start v)
  | none =>
    have hpositive : 0 < statement.clauses.length := List.length_pos_iff.mpr hne
    have hlast : statement.clauses.length = statement.clauses.length - 1 + 1 := by omega
    rw [hlast, List.range_succ] at heach
    exact exists_last_tried heach

/-- A statement with one clause ends where the pattern of the clause fails. -/
theorem runInOrder_of_only (expr : ExprRef)
    (hfails : matchPattern clause.pattern subject .root s.cleared = .ok false t) :
    tryClause ⟨expr, [clause]⟩ subject 0 s = .ok none t ∧
      runInOrder ⟨expr, [clause]⟩ subject s = .ok .noMatch t := by
  have hclause : (⟨expr, [clause]⟩ : Statement).clauses[0]? = some clause := rfl
  have htry : tryClause ⟨expr, [clause]⟩ subject 0 s = .ok none t := by
    rw [tryClause_eq hclause, bind_of_ok hfails]
    rfl
  have heach : tryEach ⟨expr, [clause]⟩ subject [0] s = .ok none t := by
    rw [tryEach, bind_of_ok htry]
    rfl
  refine ⟨htry, ?_⟩
  show (tryEach ⟨expr, [clause]⟩ subject [0] >>= _) s = _
  rw [bind_of_ok heach]
  rfl

end Clauses

/-- **What a clause that fails leaves bound.** If its guard does not hold, nothing. If its pattern fails, what
    the pattern has left, which is nothing if the pattern is tidy. A statement that no clause wins leaves what
    its last clause has left. No later clause sees any of it. -/
theorem leftovers_of_failed_clause (statement : Statement) (subject : Value) (s : Matcher) :
    (∀ (index : Nat) (clause : Clause) (t : Matcher), statement.clauses[index]? = some clause →
      tryClause statement subject index s = .ok none t →
        (matchPattern clause.pattern subject .root s.cleared = .ok false t ∧
            (clause.pattern.isTidy = true → t.bindings = .empty)) ∨
          (∃ u, matchPattern clause.pattern subject .root s.cleared = .ok true u) ∧
            t.bindings = .empty) ∧
    (∀ (clause : Clause) (t : Matcher), statement.clauses.getLast? = some clause →
      runInOrder statement subject s = .ok .noMatch t →
        (∃ u, tryClause statement subject (statement.clauses.length - 1) u = .ok none t) ∧
          (clause.pattern.isTidy = true → t.bindings = .empty)) ∧
    ∀ (index : Nat) (clause : Clause), statement.clauses[index]? = some clause →
      tryClause statement subject index s = tryClause statement subject index s.cleared := by
  refine ⟨?_, ?_, ?_⟩
  · intro index clause t hclause hrun
    rcases failed_or_empty hclause hrun with hfails | hguard
    · exact .inl ⟨hfails, fun htidy => empty_of_tidy hclause htidy hrun⟩
    · exact .inr hguard
  · intro clause t hlast hrun
    have hne : statement.clauses ≠ [] := fun h => by simp [h] at hlast
    obtain ⟨u, htry⟩ := exists_last_failed hne hrun
    rw [List.getLast?_eq_getElem?] at hlast
    exact ⟨⟨u, htry⟩, fun htidy => empty_of_tidy hlast htidy htry⟩
  · intro index clause hclause
    rw [tryClause_eq hclause, tryClause_eq hclause]
    rfl

/-- `[2, x]` is tidy, and nothing is left of it on `[1, 3]`. -/
theorem leftovers_of_failed_clause_tidy :
    let clause : Clause := ⟨.sequence [.literal (.int 2), .capture ⟨1⟩] none, none, ⟨0⟩⟩
    let value : Value := .list 0 [.int 1, .int 3]
    let s : Matcher := .ofHost .initial .empty none
    clause.pattern.isTidy = true ∧
      ∃ t, tryClause ⟨⟨0⟩, [clause]⟩ value 0 s = .ok none t ∧ t.bindings = .empty ∧
        runInOrder ⟨⟨0⟩, [clause]⟩ value s = .ok .noMatch t ∧
          ∃ u, tryClause ⟨⟨0⟩, [clause]⟩ value 0 u = .ok none t := by
  intro clause value s
  obtain ⟨t, hfails⟩ := exists_of_run' (x := matchPattern clause.pattern value .root) (s := s.cleared)
    (a := false) (by decide +kernel)
  obtain ⟨htry, hrun⟩ := runInOrder_of_only ⟨0⟩ hfails
  obtain ⟨hclause, hstatement, -⟩ := leftovers_of_failed_clause ⟨⟨0⟩, [clause]⟩ value s
  have htidy : clause.pattern.isTidy = true := by decide
  have hempty : t.bindings = .empty := by
    rcases hclause 0 clause t rfl htry with ⟨_, hleft⟩ | ⟨_, hleft⟩
    · exact hleft htidy
    · exact hleft
  obtain ⟨hlast, -⟩ := hstatement clause t rfl hrun
  exact ⟨htidy, t, htry, hempty, hrun, hlast⟩

/-- **A failed clause may leave bindings behind**: `[x, 2]` binds `x` on `[1, 3]` and then fails, and `x` is
    still bound when the statement has ended without a match. -/
theorem leftover_of_failed_pattern :
    let x : Name := ⟨1⟩
    let clause : Clause := ⟨.sequence [.capture x, .literal (.int 2)] none, none, ⟨0⟩⟩
    let value : Value := .list 0 [.int 1, .int 3]
    let s : Matcher := .ofHost .initial .empty none
    ∃ t, tryClause ⟨⟨0⟩, [clause]⟩ value 0 s = .ok none t ∧
      runInOrder ⟨⟨0⟩, [clause]⟩ value s = .ok .noMatch t ∧ t.bindings.slots.map (·.1) = [x] := by
  intro x clause value s
  obtain ⟨t, hfails, hnames⟩ := exists_of_run'_get (fun t => t.bindings.slots.map (·.1)) (s := s.cleared)
    (x := matchPattern clause.pattern value .root) (a := false) (b := [x]) (by decide +kernel)
  obtain ⟨htry, hrun⟩ := runInOrder_of_only ⟨0⟩ hfails
  exact ⟨t, htry, hrun, hnames⟩

end Matcher

end StructuralMatch

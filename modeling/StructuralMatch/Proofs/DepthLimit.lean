import StructuralMatch.Proofs.Capped

/-!
# `Proofs.DepthLimit` — a depth limit only cuts an evaluation short

A pattern goes as many levels deep as it is high (`Pattern.height`), so that an evaluation with a limit is
the one without if no clause is higher than the limit, and otherwise either is it or is cut where it reaches
the limit.

* `Matcher.capped_matchPattern` is the result for patterns, by induction on them, and
  `Matcher.capped_evaluation` the one for evaluations by either strategy.
* `Engine.spared_or_cut` says it about the results and the hosts that an engine hands out.
-/

namespace StructuralMatch

/-! ## Heights -/

mutual
/-- **The height of a pattern**: the number of patterns on a longest path through its tree. -/
def Pattern.height : Pattern → Nat
  | .wildcard => 1
  | .capture _ => 1
  | .literal _ => 1
  | .valueRef _ => 1
  | .sequence items _ => heightEach items + 1
  | .mapping entries _ => heightEntries entries + 1
  | .ofClass _ positional keywords => max (heightEach positional) (heightKeywords keywords) + 1
  | .named pattern _ => pattern.height + 1
  | .anyOf alternatives => heightEach alternatives + 1

/-- The height of the highest of some patterns. -/
def Pattern.heightEach : List Pattern → Nat
  | [] => 0
  | pattern :: rest => max pattern.height (heightEach rest)

/-- The height of the highest of the patterns of entries. -/
def Pattern.heightEntries : List (MappingKey × Pattern) → Nat
  | [] => 0
  | (_, pattern) :: rest => max pattern.height (heightEntries rest)

/-- The height of the highest of the patterns of keywords. -/
def Pattern.heightKeywords : List (Name × Pattern) → Nat
  | [] => 0
  | (_, pattern) :: rest => max pattern.height (heightKeywords rest)
end

/-- The height of the highest of some clauses. -/
def Clause.heightEach : List Clause → Nat
  | [] => 0
  | clause :: rest => max clause.pattern.height (heightEach rest)

theorem Clause.height_le_heightEach {clauses : List Clause} {clause : Clause} (h : clause ∈ clauses) :
    clause.pattern.height ≤ heightEach clauses := by
  induction clauses with
  | nil => cases h
  | cons first rest ih =>
    rw [heightEach]
    rcases List.mem_cons.mp h with rfl | hrest
    · exact Nat.le_max_left _ _
    · exact Nat.le_trans (ih hrest) (Nat.le_max_right _ _)

/-- Clauses that are higher than a limit have one among them that is. -/
theorem Clause.exists_of_lt_heightEach {clauses : List Clause} {limit : Nat}
    (h : limit < heightEach clauses) : ∃ clause ∈ clauses, limit < clause.pattern.height := by
  induction clauses with
  | nil => cases h
  | cons first rest ih =>
    rw [heightEach] at h
    rcases Nat.lt_or_ge limit first.pattern.height with hfirst | hfirst
    · exact ⟨first, List.mem_cons_self, hfirst⟩
    · obtain ⟨clause, hmem, hclause⟩ := ih (by omega)
      exact ⟨clause, List.mem_cons_of_mem _ hmem, hclause⟩

namespace Matcher

/-! ## Patterns -/

-- The induction follows the matcher: one lemma per function of the mutual recursion.
mutual
/-- **A pattern goes as many levels deep as it is high.** -/
theorem capped_matchPattern : (pattern : Pattern) → (value : Value) → (path : AccessPath) →
    Capped pattern.height (matchPattern pattern value path)
  | .wildcard, value, path => by
    rw [matchPattern, Pattern.height]
    exact .descend (.pure true)
  | .capture name, value, path => by
    rw [matchPattern, Pattern.height]
    exact .descend (.bindName name value)
  | .literal constant, value, path => by
    rw [matchPattern, Pattern.height]
    exact .descend (.matchLiteral constant value)
  | .valueRef expr, value, path => by
    rw [matchPattern, Pattern.height]
    exact .descend (.matchValueRef expr value)
  | .sequence items star, value, path => by
    rw [matchPattern, Pattern.height]
    apply Capped.descend
    apply Capped.bind (.sequenceTargets items.length star value path)
    intro targets
    cases targets with
    | none => exact .pure false
    | some targets => exact capped_matchItems items targets path
  | .mapping entries rest, value, path => by
    rw [matchPattern, Pattern.height]
    have hparts : Capped (Pattern.heightEntries entries) _ :=
      .mappingParts (entries.map (·.1)) rest value path
    apply Capped.descend
    apply hparts.bind
    intro found
    cases found with
    | none => exact .pure false
    | some found =>
      obtain ⟨parts, left⟩ := found
      exact .goOn (capped_matchEntries entries parts path) (.bindRest rest left)
  | .ofClass type positional keywords, value, path => by
    rw [matchPattern, Pattern.height]
    have hpositional := Nat.le_max_left (Pattern.heightEach positional) (Pattern.heightKeywords keywords)
    have hkeywords := Nat.le_max_right (Pattern.heightEach positional) (Pattern.heightKeywords keywords)
    apply Capped.descend
    apply Capped.bind (.ask (.isInstance value type))
    intro isInstance
    split
    · exact .pure false
    · split
      · exact .pure true
      · have hclass (height : Nat) : Capped height _ :=
          .classTargets type positional.length (keywords.map (·.1)) value path
        apply (hclass _).bind
        intro targets
        cases targets with
        | none => exact .pure false
        | itself =>
          refine .goOn ((capped_matchItself positional value path).mono hpositional) ?_
          have hattributes (height : Nat) : Capped height _ :=
            .attributeParts type 0 (keywords.map (·.1)) value path
          apply (hattributes _).bind
          intro found
          cases found with
          | none => exact .pure false
          | some found => exact (capped_matchKeywords keywords found.2 path).mono hkeywords
        | parts first second =>
          exact .goOn ((capped_matchItems positional (first.map .part) path).mono hpositional)
            ((capped_matchKeywords keywords second path).mono hkeywords)
  | .named inner name, value, path => by
    rw [matchPattern, Pattern.height]
    exact .descend (.goOn (capped_matchPattern inner value path) (.bindName name value))
  | .anyOf alternatives, value, path => by
    rw [matchPattern, Pattern.height]
    exact .descend (capped_matchFirst alternatives value path)

theorem capped_matchItself : (patterns : List Pattern) → (value : Value) → (path : AccessPath) →
    Capped (Pattern.heightEach patterns) (matchItself patterns value path)
  | [], _, _ => .pure false
  | [pattern], value, path => by
    rw [Pattern.heightEach]
    exact (capped_matchPattern pattern value path).mono (Nat.le_max_left _ _)
  | _ :: _ :: _, _, _ => .pure false

theorem capped_matchItems : (patterns : List Pattern) → (targets : List Target) →
    (path : AccessPath) → Capped (Pattern.heightEach patterns) (matchItems patterns targets path)
  | [], targets, path => by
    rw [matchItems]
    exact .pure true
  | pattern :: rest, [], path => by
    rw [matchItems]
    exact .raise fun _ h => by cases h
  | pattern :: rest, .part part :: targets, path => by
    rw [matchItems, Pattern.heightEach]
    exact .goOn ((capped_matchPattern pattern part.value _).mono (Nat.le_max_left _ _))
      ((capped_matchItems rest targets path).mono (Nat.le_max_right _ _))
  | pattern :: rest, .slice start items :: targets, path => by
    rw [matchItems, Pattern.heightEach]
    have hrest := (capped_matchItems rest targets path).mono
      (Nat.le_max_right pattern.height (Pattern.heightEach rest))
    split
    -- A wildcard that is passed over goes no level deeper.
    · exact hrest
    · apply Capped.bind (.newList items)
      intro value
      exact .goOn ((capped_matchPattern pattern value _).mono (Nat.le_max_left _ _)) hrest

theorem capped_matchEntries : (entries : List (MappingKey × Pattern)) → (parts : List Part) →
    (path : AccessPath) → Capped (Pattern.heightEntries entries) (matchEntries entries parts path)
  | [], parts, path => by
    rw [matchEntries]
    exact .pure true
  | entry :: rest, [], path => by
    rw [matchEntries]
    exact .raise fun _ h => by cases h
  | (_, pattern) :: rest, part :: parts, path => by
    rw [matchEntries, Pattern.heightEntries]
    exact .goOn ((capped_matchPattern pattern part.value _).mono (Nat.le_max_left _ _))
      ((capped_matchEntries rest parts path).mono (Nat.le_max_right _ _))

theorem capped_matchKeywords : (keywords : List (Name × Pattern)) → (parts : List Part) →
    (path : AccessPath) → Capped (Pattern.heightKeywords keywords) (matchKeywords keywords parts path)
  | [], parts, path => by
    rw [matchKeywords]
    exact .pure true
  | keyword :: rest, [], path => by
    rw [matchKeywords]
    exact .raise fun _ h => by cases h
  | (_, pattern) :: rest, part :: parts, path => by
    rw [matchKeywords, Pattern.heightKeywords]
    exact .goOn ((capped_matchPattern pattern part.value _).mono (Nat.le_max_left _ _))
      ((capped_matchKeywords rest parts path).mono (Nat.le_max_right _ _))

theorem capped_matchFirst : (alternatives : List Pattern) → (value : Value) → (path : AccessPath) →
    Capped (Pattern.heightEach alternatives) (matchFirst alternatives value path)
  | [], value, path => by
    rw [matchFirst]
    exact .pure false
  | pattern :: rest, value, path => by
    rw [matchFirst, Pattern.heightEach]
    have hfirst := (capped_matchPattern pattern value path).mono
      (Nat.le_max_left pattern.height (Pattern.heightEach rest))
    apply hfirst.attempt.bind
    intro matched
    split
    · exact .pure true
    · exact (capped_matchFirst rest value path).mono (Nat.le_max_right _ _)
end

/-! ## Clauses and plans -/

section Run

variable (statement : Statement) (subject : Value)

theorem capped_tryClause (index : Nat) :
    Capped (Clause.heightEach statement.clauses) (tryClause statement subject index) := by
  have hreset : Capped (Clause.heightEach statement.clauses) resetBindings := .rebind fun _ => .empty
  unfold tryClause
  split
  · exact .pure none
  · rename_i clause hclause
    have hheight := Clause.height_le_heightEach (List.mem_of_getElem? hclause)
    apply hreset.bind
    intro _
    apply Capped.bind ((capped_matchPattern clause.pattern subject .root).mono hheight)
    intro matched
    have hguard : Capped (Clause.heightEach statement.clauses) (checkGuard clause.guard) := by
      cases clause.guard with
      | none => exact .pure true
      | some guard => exact .get_bind (fun _ => rfl) fun s => .ask _
    have htake : Capped (Clause.heightEach statement.clauses) takeBindings :=
      .get_bind (fun _ => rfl) fun s => hreset.bind fun _ => .pure _
    split
    · exact .pure none
    · apply hguard.bind
      intro passed
      split
      · exact hreset.bind fun _ => .pure none
      · exact htake.bind fun _ => .pure _

theorem capped_tryEach (indices : List Nat) :
    Capped (Clause.heightEach statement.clauses) (tryEach statement subject indices) := by
  induction indices with
  | nil => exact .pure none
  | cons index rest ih =>
    rw [tryEach]
    apply Capped.bind (capped_tryClause statement subject index)
    intro outcome
    cases outcome with
    | some outcome => exact .pure _
    | none => exact ih

theorem capped_runSteps (steps : List PlanStep) :
    Capped (Clause.heightEach statement.clauses) (runSteps statement subject steps) := by
  have hlook (step : PlanStep) :
      Capped (Clause.heightEach statement.clauses) (stepCandidates subject step) := by
    cases step with
    | clause index => exact .pure _
    | sequenceLane clauses dispatch =>
      apply Capped.bind (.kindOf subject)
      intro kind
      split
      · exact .bind (.look .root _ _ _) fun _ => .pure _
      · exact .pure _
    | mappingLane clauses tree =>
      apply Capped.bind (.kindOf subject)
      intro kind
      split
      · exact .bind (.look .root _ _ _) fun _ => .pure _
      · exact .pure _
  induction steps with
  | nil => exact .pure none
  | cons step rest ih =>
    rw [runSteps]
    apply Capped.bind (hlook step)
    intro indices
    apply Capped.bind (capped_tryEach statement subject indices)
    intro outcome
    cases outcome with
    | some outcome => exact .pure _
    | none => exact ih

end Run

/-- **An evaluation goes as many levels deep as its highest clause**, by either strategy. -/
theorem capped_evaluation (compiled : CompiledStatement) (strategy : Strategy) (subject : Value) :
    Capped (Clause.heightEach compiled.statement.clauses) (compiled.evaluation strategy subject) := by
  rw [evaluation_eq]
  exact .bind (capped_runSteps compiled.statement subject _) fun _ => .pure _

end Matcher

/-! ## Engines -/

/-- The result, the host and the known kinds are the same. -/
def Evaluation.Same {α : Type} (a b : Evaluation α) : Prop :=
  a.result = b.result ∧ a.host = b.host ∧ a.engine.kinds = b.engine.kinds

namespace Engine

/-- The engine with another depth limit. -/
def limited (engine : Engine) (maxDepth : Option Nat) : Engine :=
  { engine with config := { engine.config with maxDepth } }

/-- **An evaluation with a limit is spared or cut.** -/
theorem spared_or_cut (engine : Engine) (strategy : Strategy) (host : Host)
    (compiled : CompiledStatement) (subject : Value) (limit : Nat) :
    let capped := (engine.limited (some limit)).matchValueWith strategy host compiled subject
    let free := (engine.limited none).matchValueWith strategy host compiled subject
    (capped.Same free ∧ ∀ reported, capped.result ≠ .error (.depthLimit reported)) ∨
      (0 < limit ∧ capped.result = .error (.depthLimit limit) ∧
        capped.host.log.toList <+: free.host.log.toList ∧
          ∃ clause ∈ compiled.statement.clauses, limit < clause.pattern.height) := by
  intro capped free
  have hspared := (Matcher.capped_evaluation compiled strategy subject).spared
    ((engine.limited (some limit)).matcher host)
  have huncapped : ((engine.limited (some limit)).matcher host).uncapped =
      (engine.limited none).matcher host := rfl
  rw [huncapped] at hspared
  have hlog : free.host.log = (Matcher.stateAfter
      (compiled.evaluation strategy subject ((engine.limited none).matcher host))).host.log := by
    rw [← Matcher.endState_eq]
    exact congrArg Host.log (host_matchValueWith _ strategy host compiled subject)
  generalize hcapped : compiled.evaluation strategy subject
    ((engine.limited (some limit)).matcher host) = r at hspared
  generalize hfree : compiled.evaluation strategy subject
    ((engine.limited none).matcher host) = r' at hspared hlog
  cases hspared with
  | answered outcome t =>
    have hcapped : capped = _ := matchValueWith_of_ok hcapped
    have hfree : free = _ := matchValueWith_of_ok hfree
    rw [hcapped, hfree]
    exact .inl ⟨⟨rfl, rfl, rfl⟩, fun _ h => by cases h⟩
  | raised t hother =>
    have hcapped : capped = _ := matchValueWith_of_error hcapped
    have hfree : free = _ := matchValueWith_of_error hfree
    rw [hcapped, hfree]
    exact .inl ⟨⟨rfl, rfl, rfl⟩, fun _ h => hother _ (Except.error.inj h)⟩
  | @cut reported t _ hlimit hlt hprefix =>
    -- The matcher sets out at depth zero, with the limit that it was given.
    have hlimit : (some limit).filter (0 < ·) = some reported := hlimit
    obtain ⟨heq, hpositive⟩ := Option.filter_eq_some_iff.mp hlimit
    cases heq
    have hcapped : capped = _ := matchValueWith_of_error hcapped
    rw [hlog, hcapped]
    refine .inr ⟨of_decide_eq_true hpositive, rfl, hprefix, ?_⟩
    exact Clause.exists_of_lt_heightEach (Nat.lt_of_lt_of_eq hlt (Nat.zero_add _))

/-- **A depth limit is conservative.** An evaluation that does not end with the error of the limit is the one
    without a limit. If it ends so, the error names the limit, what was asked is a part of what the
    evaluation without a limit asks, and some clause is higher than the limit. Clauses that are no higher
    are never affected, and a limit of zero is none. -/
theorem matchValueWith_limited (engine : Engine) (strategy : Strategy) (host : Host)
    (compiled : CompiledStatement) (subject : Value) (limit : Nat) :
    let capped := (engine.limited (some limit)).matchValueWith strategy host compiled subject
    let free := (engine.limited none).matchValueWith strategy host compiled subject
    ((∀ reported, capped.result ≠ .error (.depthLimit reported)) → capped.Same free) ∧
      (∀ reported, capped.result = .error (.depthLimit reported) →
        reported = limit ∧ capped.host.log.toList <+: free.host.log.toList ∧
          ∃ clause ∈ compiled.statement.clauses, limit < clause.pattern.height) ∧
      ((∀ clause ∈ compiled.statement.clauses, clause.pattern.height ≤ limit) → capped.Same free) ∧
      (limit = 0 → capped.Same free) := by
  intro capped free
  rcases engine.spared_or_cut strategy host compiled subject limit with hspared | hcut
  · obtain ⟨hsame, hother⟩ := hspared
    exact ⟨fun _ => hsame, fun reported h => absurd h (hother reported), fun _ => hsame, fun _ => hsame⟩
  · obtain ⟨hpositive, herror, hprefix, clause, hclause, hhigher⟩ := hcut
    refine ⟨?_, ?_, ?_, ?_⟩
    · intro hother
      exact absurd herror (hother limit)
    · intro reported hreported
      have hsame := Except.error.inj (herror.symm.trans hreported)
      exact ⟨(MatchError.depthLimit.inj hsame).symm, hprefix, clause, hclause, hhigher⟩
    · intro hheights
      exact absurd hhigher (Nat.not_lt.mpr (hheights clause hclause))
    · intro hzero
      exact absurd hzero (Nat.ne_of_gt hpositive)

/-- `[[x]]` has height 3: on `[[5]]` it is cut at a limit of 2 and spared at a limit of 3. -/
theorem matchValueWith_limited_nested :
    let pattern : Pattern := .sequence [.sequence [.capture ⟨1⟩] none] none
    let compiled := (ofConfig {}).compile ⟨⟨0⟩, [⟨pattern, none, ⟨0⟩⟩]⟩
    let subject : Value := .list 0 [.list 1 [.int 5]]
    (((ofConfig {}).limited (some 2)).matchValueWith .lanes .initial compiled subject).result =
        .error (.depthLimit 2) ∧
      (((ofConfig {}).limited (some 2)).matchValueWith .lanes .initial compiled subject).host.log.toList <+:
        (((ofConfig {}).limited none).matchValueWith .lanes .initial compiled subject).host.log.toList ∧
      (∃ clause ∈ compiled.statement.clauses, 2 < clause.pattern.height) ∧
      (((ofConfig {}).limited (some 3)).matchValueWith .lanes .initial compiled subject).Same
        (((ofConfig {}).limited none).matchValueWith .lanes .initial compiled subject) := by
  intro pattern compiled subject
  have hcut : (((ofConfig {}).limited (some 2)).matchValueWith .lanes .initial compiled subject).result =
      .error (.depthLimit 2) := by
    have herror : (match (((ofConfig {}).limited (some 2)).matchValueWith .lanes .initial compiled
        subject).result with
      | .error e => some e
      | .ok _ => none) = some (.depthLimit 2) := by decide +kernel
    generalize (((ofConfig {}).limited (some 2)).matchValueWith .lanes .initial compiled subject).result =
      result at herror
    cases result with
    | ok outcome => cases herror
    | error e => rw [Option.some.inj herror]
  obtain ⟨-, htwo, -, -⟩ := (ofConfig {}).matchValueWith_limited .lanes .initial compiled subject 2
  obtain ⟨-, -, hthree, -⟩ := (ofConfig {}).matchValueWith_limited .lanes .initial compiled subject 3
  obtain ⟨-, hprefix, hhigher⟩ := htwo 2 hcut
  have hheights : ∀ clause ∈ compiled.statement.clauses, clause.pattern.height ≤ 3 := by
    intro clause hclause
    rw [List.mem_singleton.mp hclause]
    decide
  exact ⟨hcut, hprefix, hhigher, hthree hheights⟩

end Engine

end StructuralMatch

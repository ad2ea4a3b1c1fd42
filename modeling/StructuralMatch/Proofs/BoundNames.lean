import StructuralMatch.Proofs.Frame
import StructuralMatch.Proofs.NameChoices
import StructuralMatch.Proofs.ProblemReport

/-!
# `Proofs.BoundNames` — a match binds the names that its pattern declares

A trial only adds bindings behind the earlier ones, and a match adds one of the lists of names that
`Pattern.nameChoices` gives. The induction on patterns keeps the judgement `Binds`; its result is
`binds_matchPattern`.

With what validation establishes about the choices, a pattern without differing alternatives binds the
members of `Pattern.boundNames`, in this very order if there are no alternatives at all
(`added_names_of_match`). A clause without structural problems binds no name twice unless a later
alternative of an or-pattern does, which is not reported (`added_names_nodup_of_match`).
-/

namespace StructuralMatch

namespace Matcher

variable {α : Type}

/-! ## Steps that bind nothing -/

/-- The bindings are the same. -/
def SameBindings (s t : Matcher) : Prop := t.bindings = s.bindings

namespace SameBindings

/-- **No step that finds the parts of a value binds a name.** -/
theorem evolution : PartEvolution (fun _ => True) SameBindings fun _ _ _ => True :=
  PlacePassage.partEvolution {
    refl := fun _ => rfl
    trans := fun hst htu => Eq.trans htu hst
    fails := fun _ _ => trivial
    stays := fun hbindings _ _ => hbindings
    failsThere := fun _ _ _ => trivial }

/-- What a value was found to be does not depend on the bindings. -/
theorem admitted {value : Value} {kind : MatchKind} {s : Matcher}
    (h : Admitted (fun _ => True) SameBindings value kind s) (t : Matcher) :
    Admitted (fun _ => True) SameBindings value kind t := by
  obtain ⟨type, s₀, s₁, s₂, -, hask, hkind, -⟩ := h
  rw [askHost_of_answer rfl] at hask
  injection hask with hinstance hs₁
  have hkind' : kind = s₁.kindAt value.type := kind_of_kindOf hkind
  -- The same question from a state that has the bindings of `t` already.
  let u₀ : Matcher := { s₀ with bindings := t.bindings }
  let u₁ : Matcher := { u₀ with host := u₀.host.record (Question.isInstance value type).event }
  let u₂ : Matcher := { u₁ with kinds := (u₁.kinds.resolve u₁.host.types value.type).2 }
  have hask' : askHost (.isInstance value type) u₀ = .ok true u₁ :=
    askHost_of_answer (congrArg Except.ok hinstance)
  have hkinds : u₁.kindAt value.type = kind := by
    rw [hkind', ← hs₁]
    rfl
  exact ⟨type, u₀, u₁, u₂, trivial, hask', hkinds ▸ kindOf_eq value u₁, rfl⟩

end SameBindings

/-! ## The judgement -/

/-- **The judgement.** From the state `s` the trial only adds bindings behind the earlier ones, and if it
    matches, the names that it adds are one of the choices. -/
def Binds (trial : MatchM Bool) (s : Matcher) (choices : List (List Name)) : Prop :=
  ∀ matched t, trial s = .ok matched t → ∃ added : List (Name × Value),
    t.bindings.slots = s.bindings.slots ++ added ∧ (matched = true → added.map (·.1) ∈ choices)

namespace Binds

variable {trial next : MatchM Bool} {s : Matcher} {choices first second : List (List Name)}

/-- An answer binds nothing. -/
theorem answer {matched : Bool} (h : matched = true → [] ∈ choices) : Binds (pure matched) s choices := by
  intro _ _ hrun
  cases hrun
  exact ⟨[], (List.append_nil _).symm, h⟩

theorem fails : Binds (pure false) s choices := answer fun h => by cases h

/-- A comparison that binds nothing. -/
theorem of_sameBindings
    (h : Leads (fun _ => True) SameBindings (fun _ _ _ => True) trial s fun _ _ => True) :
    Binds trial s [[]] := by
  intro matched t hrun
  refine ⟨[], ?_, fun _ => List.mem_singleton_self []⟩
  rw [List.append_nil, h.rel_of_ok hrun]

/-- What binds nothing may come first. -/
theorem after {x : MatchM α} {f : α → MatchM Bool} {Q : α → Matcher → Prop}
    (hx : Leads (fun _ => True) SameBindings (fun _ _ _ => True) x s Q)
    (hf : ∀ a t, x s = .ok a t → Q a t → Binds (f a) t choices) : Binds (x >>= f) s choices := by
  intro matched u hrun
  obtain ⟨a, t, hxs, hft⟩ := exists_of_bind_ok hrun
  obtain ⟨-, hkeeps, hQ⟩ := hx.of_ok trivial hxs
  obtain ⟨added, hslots, hnames⟩ := hf a t hxs hQ matched u hft
  exact ⟨added, by rw [hslots, hkeeps], hnames⟩

/-- **The names of a second trial come behind those of the first.** -/
theorem goOn (hfirst : Binds trial s first)
    (hsecond : ∀ t, trial s = .ok true t → Binds next t second) :
    Binds (do if ← trial then next else return false) s (Pattern.joined first second) := by
  intro matched u hrun
  obtain ⟨passed, t, htrial, hrest⟩ := exists_of_bind_ok hrun
  obtain ⟨before, hbefore, hchosen⟩ := hfirst passed t htrial
  cases passed with
  | false =>
    cases hrest
    exact ⟨before, hbefore, fun h => by cases h⟩
  | true =>
    obtain ⟨added, hadded, hnames⟩ := hsecond t htrial matched u hrest
    refine ⟨before ++ added, by rw [hadded, hbefore, List.append_assoc], fun hmatched => ?_⟩
    rw [List.map_append]
    exact Pattern.mem_joined.mpr ⟨_, hchosen rfl, _, hnames hmatched, rfl⟩

/-- One level deeper the same is bound. -/
theorem descend (h : ∀ t, Binds trial t choices) : Binds (Matcher.descend trial) s choices := by
  intro matched u hrun
  obtain ⟨t, htrial, rfl⟩ := exists_of_descend_ok hrun
  exact h { s with depth := s.depth + 1 } matched t htrial

/-- A binding that completes a match. -/
theorem bindName (name : Name) (value : Value) :
    Binds (do bind name value; return true) s [[name]] := by
  intro matched t hrun
  cases hrun
  exact ⟨[(name, value)], rfl, fun _ => List.mem_singleton_self [name]⟩

/-- **An alternative that fails leaves nothing behind.** -/
theorem attempt (hfirst : Binds trial s first)
    (hsecond : ∀ t : Matcher, t.bindings = s.bindings → Binds next t second) :
    Binds (do
      if ← Matcher.attempt trial then return true
      next) s (first ++ second) := by
  intro matched u hrun
  obtain ⟨passed, t, hattempt, hrest⟩ := exists_of_bind_ok hrun
  obtain ⟨t', htrial, rfl⟩ := exists_of_attempt_ok hattempt
  obtain ⟨added, hslots, hchosen⟩ := hfirst passed t' htrial
  cases passed with
  | true =>
    cases hrest
    exact ⟨added, hslots, fun _ => List.mem_append_left _ (hchosen rfl)⟩
  | false =>
    have hback : t'.bindings.truncate s.bindings.mark = s.bindings := by
      have := s.bindings.truncate_mark added
      rwa [← hslots] at this
    obtain ⟨later, hlater, hnames⟩ := hsecond _ hback matched u hrest
    rw [hback] at hlater
    exact ⟨later, hlater, fun hmatched => List.mem_append_right _ (hnames hmatched)⟩

end Binds

/-! ## Patterns -/

/-- The dict of what is left over is bound last. -/
theorem binds_bindRest (rest : Option Name) (left : List (Value × Value)) (s : Matcher) :
    Binds (do bindRest rest left; return true) s [rest.toList] := by
  cases rest with
  | none => exact .answer fun _ => List.mem_singleton_self []
  | some name =>
    simp only [bindRest, bind_assoc]
    exact .after (SameBindings.evolution.newDict left s) fun dict t _ _ => .bindName name dict

-- The induction follows the matcher: one lemma per function of the mutual recursion.
mutual
/-- **A match of a pattern binds one of its choices of names.** -/
theorem binds_matchPattern : (pattern : Pattern) → (value : Value) → (path : AccessPath) →
    (s : Matcher) → Binds (matchPattern pattern value path) s pattern.nameChoices
  | .wildcard, value, path, s => by
    rw [matchPattern, Pattern.nameChoices]
    exact .descend fun t => .answer fun _ => List.mem_singleton_self []
  | .capture name, value, path, s => by
    rw [matchPattern, Pattern.nameChoices]
    exact .descend fun t => .bindName name value
  | .literal constant, value, path, s => by
    rw [matchPattern, Pattern.nameChoices]
    exact .descend fun t => .of_sameBindings (SameBindings.evolution.matchLiteral constant value t)
  | .valueRef expr, value, path, s => by
    rw [matchPattern, Pattern.nameChoices]
    exact .descend fun t => .of_sameBindings (SameBindings.evolution.matchValueRef expr value t)
  | .sequence items star, value, path, s => by
    rw [matchPattern, Pattern.nameChoices]
    refine .descend fun t => ?_
    refine .after (SameBindings.evolution.sequenceTargets items.length star value path t)
      fun targets u _ _ => ?_
    cases targets with
    | none => exact .fails
    | some targets => exact binds_matchItems items targets path u
  | .mapping entries rest, value, path, s => by
    rw [matchPattern, Pattern.nameChoices]
    refine .descend fun t => ?_
    have hmapping := SameBindings.evolution.mappingParts (entries.map (·.1)) rest value path t
    refine .after hmapping fun found u _ _ => ?_
    cases found with
    | none => exact .fails
    | some found =>
      obtain ⟨parts, left⟩ := found
      exact .goOn (binds_matchEntries entries parts path u) fun v _ => binds_bindRest rest left v
  | .ofClass type positional keywords, value, path, s => by
    rw [matchPattern, Pattern.nameChoices]
    refine .descend fun t => ?_
    refine .after (SameBindings.evolution.isInstance value type t) fun isInstance u hask _ => ?_
    cases isInstance with
    | false => exact .fails
    | true =>
      rw [if_neg (by simp)]
      split
      · rename_i hempty
        rw [Bool.and_eq_true, List.isEmpty_iff, List.isEmpty_iff] at hempty
        obtain ⟨rfl, rfl⟩ := hempty
        exact .answer fun _ => List.mem_singleton_self []
      · have hclass := SameBindings.evolution.classTargets trivial hask positional.length
          (keywords.map (·.1)) path
        refine .after hclass fun targets v _ hfits => ?_
        cases targets with
        | none => exact .fails
        | itself =>
          obtain ⟨-, kind, had, hmode⟩ := hfits
          refine .goOn (binds_matchItself positional value path v) fun w _ => ?_
          have hattributes := SameBindings.evolution.attributeParts (SameBindings.admitted had w) type
            (.inl ⟨hmode, rfl⟩) (keywords.map (·.1)) path
          refine .after hattributes fun found x _ _ => ?_
          cases found with
          | none => exact .fails
          | some found => exact binds_matchKeywords keywords found.2 path x
        | parts first second =>
          exact .goOn (binds_matchItems positional (first.map .part) path v)
            fun w _ => binds_matchKeywords keywords second path w
  | .named inner name, value, path, s => by
    rw [matchPattern, Pattern.nameChoices]
    exact .descend fun t =>
      .goOn (binds_matchPattern inner value path t) fun u _ => .bindName name value
  | .anyOf alternatives, value, path, s => by
    rw [matchPattern, Pattern.nameChoices]
    exact .descend fun t => binds_matchFirst alternatives value path t

theorem binds_matchItself : (patterns : List Pattern) → (value : Value) → (path : AccessPath) →
    (s : Matcher) → Binds (matchItself patterns value path) s (Pattern.nameChoicesEach patterns)
  | [], _, _, _ => .fails
  | [pattern], value, path, s => by
    rw [matchItself, Pattern.nameChoicesEach, Pattern.nameChoicesEach, Pattern.joined_nothing]
    exact binds_matchPattern pattern value path s
  | _ :: _ :: _, _, _, _ => .fails

theorem binds_matchItems : (patterns : List Pattern) → (targets : List Target) →
    (path : AccessPath) → (s : Matcher) →
    Binds (matchItems patterns targets path) s (Pattern.nameChoicesEach patterns)
  | [], targets, path, s => by
    rw [matchItems]
    exact .answer fun _ => List.mem_singleton_self []
  | pattern :: rest, [], path, s => by
    rw [matchItems]
    intro _ _ hrun
    cases hrun
  | pattern :: rest, .part part :: targets, path, s => by
    rw [matchItems, Pattern.nameChoicesEach]
    exact .goOn (binds_matchPattern pattern part.value _ s) fun t _ =>
      binds_matchItems rest targets path t
  | pattern :: rest, .slice start items :: targets, path, s => by
    rw [matchItems, Pattern.nameChoicesEach]
    split
    -- A wildcard binds nothing, so that it need not be matched with a new list.
    · rename_i hwildcard
      have hnothing : pattern.nameChoices = [[]] := by
        cases pattern <;> first | rfl | cases hwildcard
      rw [hnothing, Pattern.nothing_joined]
      exact binds_matchItems rest targets path s
    · exact .after (SameBindings.evolution.newList items s) fun value t _ _ =>
        .goOn (binds_matchPattern pattern value _ t) fun u _ => binds_matchItems rest targets path u

theorem binds_matchEntries : (entries : List (MappingKey × Pattern)) → (parts : List Part) →
    (path : AccessPath) → (s : Matcher) →
    Binds (matchEntries entries parts path) s (Pattern.nameChoicesEntries entries)
  | [], parts, path, s => by
    rw [matchEntries]
    exact .answer fun _ => List.mem_singleton_self []
  | entry :: rest, [], path, s => by
    rw [matchEntries]
    intro _ _ hrun
    cases hrun
  | (_, pattern) :: rest, part :: parts, path, s => by
    rw [matchEntries, Pattern.nameChoicesEntries]
    exact .goOn (binds_matchPattern pattern part.value _ s) fun t _ =>
      binds_matchEntries rest parts path t

theorem binds_matchKeywords : (keywords : List (Name × Pattern)) → (parts : List Part) →
    (path : AccessPath) → (s : Matcher) →
    Binds (matchKeywords keywords parts path) s (Pattern.nameChoicesKeywords keywords)
  | [], parts, path, s => by
    rw [matchKeywords]
    exact .answer fun _ => List.mem_singleton_self []
  | keyword :: rest, [], path, s => by
    rw [matchKeywords]
    intro _ _ hrun
    cases hrun
  | (_, pattern) :: rest, part :: parts, path, s => by
    rw [matchKeywords, Pattern.nameChoicesKeywords]
    exact .goOn (binds_matchPattern pattern part.value _ s) fun t _ =>
      binds_matchKeywords rest parts path t

theorem binds_matchFirst : (alternatives : List Pattern) → (value : Value) → (path : AccessPath) →
    (s : Matcher) →
    Binds (matchFirst alternatives value path) s (Pattern.nameChoicesSome alternatives)
  | [], value, path, s => by
    rw [matchFirst]
    exact .fails
  | pattern :: rest, value, path, s => by
    rw [matchFirst, Pattern.nameChoicesSome]
    exact .attempt (binds_matchPattern pattern value path s) fun t _ =>
      binds_matchFirst rest value path t
end

/-! ## The names that a match adds -/

/-- What a match adds is bound to one of the choices of names. -/
theorem exists_added_of_match {pattern : Pattern} {value : Value} {path : AccessPath} {s t : Matcher}
    (hrun : matchPattern pattern value path s = .ok true t) :
    ∃ added : List (Name × Value), t.bindings.slots = s.bindings.slots ++ added ∧
      added.map (·.1) ∈ pattern.nameChoices := by
  obtain ⟨added, hslots, hnames⟩ := binds_matchPattern pattern value path s true t hrun
  exact ⟨added, hslots, hnames rfl⟩

/-- **A match adds bindings behind the earlier ones, and the names that it adds are the declared ones**:
    as a set if no alternatives are reported to differ, and in the same order if there are no
    alternatives. -/
theorem added_names_of_match {pattern : Pattern} {value : Value} {path : AccessPath} {s t : Matcher}
    (hrun : matchPattern pattern value path s = .ok true t) :
    ∃ added : List (Name × Value), t.bindings.slots = s.bindings.slots ++ added ∧
      (.alternativesDiffer ∉ pattern.problems →
        ∀ name, name ∈ added.map (·.1) ↔ name ∈ pattern.boundNames) ∧
      ((∀ alternatives, ¬pattern.Contains (.anyOf alternatives)) →
        added.map (·.1) = pattern.boundNames) := by
  obtain ⟨added, hslots, hchosen⟩ := exists_added_of_match hrun
  refine ⟨added, hslots, fun hagree => ?_, fun hnone => ?_⟩
  · exact Pattern.related_of_mem_nameChoices Pattern.SameNames.respectsAppend pattern
      (Pattern.alternativesAgree_of_problems hagree) _ hchosen
  · have hvacuous : pattern.AlternativesAgree Eq := fun _ _ hinside => absurd hinside (hnone _)
    exact Pattern.related_of_mem_nameChoices Pattern.eq_respectsAppend pattern hvacuous _ hchosen

/-- `[[0, x] | [x, _], *y] as z` matches `[[5, 6], 7]` with its second alternative. -/
theorem added_names_of_match_second :
    let x : Name := ⟨1⟩
    let y : Name := ⟨2⟩
    let z : Name := ⟨3⟩
    let alternatives : Pattern := .anyOf [.sequence [.literal (.int 0), .capture x] none,
      .sequence [.capture x, .wildcard] none]
    let pattern : Pattern := .named (.sequence [alternatives, .capture y] (some 1)) z
    let s : Matcher := .ofHost .initial .empty none
    ∃ t, matchPattern pattern (.list 0 [.list 1 [.int 5, .int 6], .int 7]) .root s = .ok true t ∧
      ∃ added : List (Name × Value), t.bindings.slots = s.bindings.slots ++ added ∧
        (.alternativesDiffer ∉ pattern.problems →
          ∀ name, name ∈ added.map (·.1) ↔ name ∈ pattern.boundNames) ∧
        ((∀ alternatives, ¬pattern.Contains (.anyOf alternatives)) →
          added.map (·.1) = pattern.boundNames) := by
  intro x y z alternatives pattern s
  obtain ⟨t, hrun⟩ := exists_of_run' (s := s) (a := true)
    (x := matchPattern pattern (.list 0 [.list 1 [.int 5, .int 6], .int 7]) .root) (by decide +kernel)
  exact ⟨t, hrun, added_names_of_match hrun⟩

/-! ## Names that are bound twice -/

/-- What the problems of a statement say about the names of a clause without structural problems. -/
theorem linear_of_problems {statement : Statement} {index : Nat} {clause : Clause}
    (hclause : statement.clauses[index]? = some clause)
    (hnone : ∀ problem ∈ statement.problems, problem.clause = index →
      problem.kind.isStructural = false) :
    clause.pattern.boundNames.Nodup ∧ .alternativesDiffer ∉ clause.pattern.problems := by
  have hno (kind : ProblemKind) (hstructural : kind.isStructural = true) :
      kind ∉ clause.structuralProblems := by
    intro hkind
    have hfalse := hnone _ (Statement.mem_problems_of_structural hclause hkind) rfl
    exact absurd (hstructural.symm.trans hfalse) (by decide)
  constructor
  · have hrepeats : repeats [] clause.pattern.boundNames = [] := by
      refine List.eq_nil_iff_forall_not_mem.mpr fun name hname => ?_
      refine hno (.duplicateBinding name) rfl (List.mem_append_right _ ?_)
      exact List.mem_map_of_mem hname
    exact (Pattern.repeats_eq_nil_iff.mp hrepeats).1
  · intro hdiffer
    exact hno .alternativesDiffer rfl (List.mem_append_left _ hdiffer)

/-- **A clause without structural problems binds every name once**, provided that none of its
    alternatives behind a first one binds a name twice. -/
theorem added_names_nodup_of_match {statement : Statement} {index : Nat} {clause : Clause}
    (hclause : statement.clauses[index]? = some clause)
    (hnone : ∀ problem ∈ statement.problems, problem.clause = index →
      problem.kind.isStructural = false)
    (hlater : clause.pattern.LaterAlternativesLinear) {value : Value} {path : AccessPath}
    {s t : Matcher} (hrun : matchPattern clause.pattern value path s = .ok true t) :
    ∃ added : List (Name × Value), t.bindings.slots = s.bindings.slots ++ added ∧
      (added.map (·.1)).Nodup ∧ (added.map (·.1)).Perm clause.pattern.boundNames := by
  obtain ⟨hnodup, hdiffer⟩ := linear_of_problems hclause hnone
  obtain ⟨added, hslots, hchosen⟩ := exists_added_of_match hrun
  have hagree : clause.pattern.AlternativesAgree List.Perm :=
    Pattern.alternativesAgree_of_noRepeats hnodup hlater (Pattern.alternativesAgree_of_problems hdiffer)
  have hperm : (added.map (·.1)).Perm clause.pattern.boundNames :=
    Pattern.related_of_mem_nameChoices Pattern.perm_respectsAppend _ hagree _ hchosen
  exact ⟨added, hslots, hperm.nodup_iff.mpr hnodup, hperm⟩

/-- `[x] | x` matches 5 with its second alternative. -/
theorem added_names_nodup_of_match_second :
    let x : Name := ⟨1⟩
    let pattern : Pattern := .anyOf [.sequence [.capture x] none, .capture x]
    let statement : Statement := ⟨⟨0⟩, [⟨pattern, none, ⟨0⟩⟩]⟩
    let s : Matcher := .ofHost .initial .empty none
    (∀ problem ∈ statement.problems, problem.clause = 0 → problem.kind.isStructural = false) ∧
      pattern.LaterAlternativesLinear ∧
      ∃ t, matchPattern pattern (.int 5) .root s = .ok true t ∧
        ∃ added : List (Name × Value), t.bindings.slots = s.bindings.slots ++ added ∧
          (added.map (·.1)).Nodup ∧ (added.map (·.1)).Perm pattern.boundNames := by
  intro x pattern statement s
  have hclause : statement.clauses[0]? = some ⟨pattern, none, ⟨0⟩⟩ := rfl
  have hnone : ∀ problem ∈ statement.problems, problem.clause = 0 →
      problem.kind.isStructural = false := by decide
  have hx : (Pattern.capture x).LaterAlternativesLinear :=
    .of_children (fun _ _ h => by cases h) fun _ h => by cases h
  have hlater : pattern.LaterAlternativesLinear := by
    show (Pattern.anyOf [.sequence [.capture x] none, .capture x]).LaterAlternativesLinear
    refine .of_children (fun first rest heq other hother => ?_) fun child hchild => ?_
    · cases heq
      cases List.mem_singleton.mp hother
      decide
    · obtain rfl | rfl : child = .sequence [.capture x] none ∨ child = .capture x := by
        cases hchild with
        | alternative hmem => simpa using hmem
      · refine .of_children (fun _ _ h => by cases h) fun item hitem => ?_
        cases hitem with
        | item hmem =>
          cases List.mem_singleton.mp hmem
          exact hx
      · exact hx
  obtain ⟨t, hrun⟩ := exists_of_run' (s := s) (a := true) (x := matchPattern pattern (.int 5) .root)
    (by decide +kernel)
  exact ⟨hnone, hlater, t, hrun, added_names_nodup_of_match hclause hnone hlater hrun⟩

/-- **A name that a later alternative binds twice is not reported**: in `[x] | [x, x]` the alternatives
    have the same names, and the first one binds `x` once, but `[1, 2]` is matched by the second one. -/
theorem repeated_name_not_reported :
    let x : Name := ⟨1⟩
    let pattern : Pattern := .anyOf [.sequence [.capture x] none, .sequence [.capture x, .capture x] none]
    let statement : Statement := ⟨⟨0⟩, [⟨pattern, none, ⟨0⟩⟩]⟩
    statement.problems = [] ∧
      ∃ t, matchPattern pattern (.list 0 [.int 1, .int 2]) .root (.ofHost .initial .empty none) =
        .ok true t ∧ t.bindings.slots.map (·.1) = [x, x] := by
  intro x pattern statement
  let named : MatchM (Bool × List Name) := do
    let matched ← matchPattern pattern (.list 0 [.int 1, .int 2]) .root
    return (matched, (← get).bindings.slots.map (·.1))
  obtain ⟨u, hnamed⟩ := exists_of_run' (x := named) (s := .ofHost .initial .empty none)
    (a := (true, [x, x])) (by decide +kernel)
  obtain ⟨matched, t, hrun, hrest⟩ := exists_of_bind_ok hnamed
  have hpair : (matched, t.bindings.slots.map (·.1)) = (true, [x, x]) := by
    injection hrest
  obtain ⟨rfl, hnames⟩ := Prod.mk.inj hpair
  exact ⟨by decide, t, hrun, hnames⟩

end Matcher

end StructuralMatch

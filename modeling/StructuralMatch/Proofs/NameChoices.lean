import Mathlib.Data.List.Nodup
import Mathlib.Logic.Relation
import StructuralMatch.Pattern.Problem

/-!
# `Proofs.NameChoices` — the names that a match may bind

`Pattern.boundNames` lets the first alternative of every or-pattern speak for all. Which names a match
binds depends on the alternatives that match. `Pattern.nameChoices` lists the names for every choice of
alternatives, and this module says how far they can differ from `boundNames`.

* `Pattern.Contains` relates a pattern to the patterns inside it.
* `AlternativesAgree R` says that inside a pattern the names of all alternatives are `R`-related to those
  of the first one. Then all choices are `R`-related to `boundNames` (`related_of_mem_nameChoices`), for
  every `R` that appending respects: equality, having the same members, being a permutation.
* `alternativesAgree_of_problems` and `alternativesAgree_of_noRepeats` say what validation establishes.
-/

namespace StructuralMatch

namespace Pattern

/-! ## The patterns inside a pattern -/

/-- The second pattern is a sub-pattern of the first. -/
inductive HasChild : Pattern → Pattern → Prop
  | item {items star pattern} : pattern ∈ items → HasChild (.sequence items star) pattern
  | entry {entries rest entry} : entry ∈ entries → HasChild (.mapping entries rest) entry.2
  | positional {type positional keywords pattern} : pattern ∈ positional →
      HasChild (.ofClass type positional keywords) pattern
  | keyword {type positional keywords keyword} : keyword ∈ keywords →
      HasChild (.ofClass type positional keywords) keyword.2
  | named {pattern name} : HasChild (.named pattern name) pattern
  | alternative {alternatives pattern} : pattern ∈ alternatives →
      HasChild (.anyOf alternatives) pattern

/-- The second pattern is the first one or lies inside it. -/
def Contains : Pattern → Pattern → Prop := Relation.ReflTransGen HasChild

/-! ## Choices of alternatives -/

/-- The lists that consist of a first part and a second part. -/
def joined (first second : List (List Name)) : List (List Name) :=
  first.flatMap fun names => second.map (names ++ ·)

theorem mem_joined {first second : List (List Name)} {names : List Name} :
    names ∈ joined first second ↔ ∃ a ∈ first, ∃ b ∈ second, a ++ b = names := by
  simp only [joined, List.mem_flatMap, List.mem_map]

@[simp]
theorem joined_nothing (choices : List (List Name)) : joined choices [[]] = choices := by
  simp [joined]

@[simp]
theorem nothing_joined (choices : List (List Name)) : joined [[]] choices = choices := by
  simp [joined]

mutual
/-- The names that a match may bind, in binding order, for every choice of alternatives. -/
def nameChoices : Pattern → List (List Name)
  | .wildcard => [[]]
  | .capture name => [[name]]
  | .literal _ => [[]]
  | .valueRef _ => [[]]
  | .sequence items _ => nameChoicesEach items
  | .mapping entries rest => joined (nameChoicesEntries entries) [rest.toList]
  | .ofClass _ positional keywords =>
    joined (nameChoicesEach positional) (nameChoicesKeywords keywords)
  | .named pattern name => joined (nameChoices pattern) [[name]]
  | .anyOf alternatives => nameChoicesSome alternatives

/-- The names that a match of all patterns of a list may bind. -/
def nameChoicesEach : List Pattern → List (List Name)
  | [] => [[]]
  | pattern :: rest => joined (nameChoices pattern) (nameChoicesEach rest)

/-- The names that a match of all entries may bind. -/
def nameChoicesEntries : List (MappingKey × Pattern) → List (List Name)
  | [] => [[]]
  | (_, pattern) :: rest => joined (nameChoices pattern) (nameChoicesEntries rest)

/-- The names that a match of all keyword sub-patterns may bind. -/
def nameChoicesKeywords : List (Name × Pattern) → List (List Name)
  | [] => [[]]
  | (_, pattern) :: rest => joined (nameChoices pattern) (nameChoicesKeywords rest)

/-- The names that a match of some pattern of a list may bind. -/
def nameChoicesSome : List Pattern → List (List Name)
  | [] => []
  | pattern :: rest => nameChoices pattern ++ nameChoicesSome rest
end

/-! ## Agreeing alternatives -/

/-- Inside the pattern the names of every alternative are related to those of the first one. -/
def AlternativesAgree (R : List Name → List Name → Prop) (pattern : Pattern) : Prop :=
  ∀ first rest, pattern.Contains (.anyOf (first :: rest)) →
    ∀ other ∈ rest, R other.boundNames first.boundNames

/-- What alternatives agree on, they agree on in every sub-pattern. -/
theorem AlternativesAgree.child {R : List Name → List Name → Prop} {pattern child : Pattern}
    (h : AlternativesAgree R pattern) (hchild : pattern.HasChild child) : AlternativesAgree R child :=
  fun first rest hinside => h first rest (.head hchild hinside)

/-- Related lists stay related when related lists are put behind them. -/
structure RespectsAppend (R : List Name → List Name → Prop) : Prop where
  refl : ∀ names, R names names
  trans : ∀ {a b c}, R a b → R b c → R a c
  append : ∀ {a b c d}, R a b → R c d → R (a ++ c) (b ++ d)

/-- A joined choice is related to the joined names if its parts are. -/
theorem RespectsAppend.joined {R : List Name → List Name → Prop} (c : RespectsAppend R)
    {first second : List (List Name)} {a b names : List Name} (ha : ∀ x ∈ first, R x a)
    (hb : ∀ y ∈ second, R y b) (h : names ∈ joined first second) : R names (a ++ b) := by
  obtain ⟨x, hx, y, hy, rfl⟩ := mem_joined.mp h
  exact c.append (ha x hx) (hb y hy)

section Choices

variable {R : List Name → List Name → Prop}

-- The induction follows the definition of the choices: one lemma per function of the mutual recursion.
mutual
/-- **Every choice of alternatives binds the names that the first alternatives stand for**, up to what
    the alternatives agree on. -/
theorem related_of_mem_nameChoices (c : RespectsAppend R) : (pattern : Pattern) →
    AlternativesAgree R pattern → ∀ names ∈ pattern.nameChoices, R names pattern.boundNames
  | .wildcard, _, names, h => by
    cases List.mem_singleton.mp h
    exact c.refl []
  | .capture name, _, names, h => by
    cases List.mem_singleton.mp h
    exact c.refl [name]
  | .literal _, _, names, h => by
    cases List.mem_singleton.mp h
    exact c.refl []
  | .valueRef _, _, names, h => by
    cases List.mem_singleton.mp h
    exact c.refl []
  | .sequence items _, hagree, names, h => by
    rw [nameChoices] at h
    rw [boundNames]
    exact related_of_mem_nameChoicesEach c items (fun _ hp => hagree.child (.item hp)) names h
  | .mapping entries rest, hagree, names, h => by
    rw [nameChoices] at h
    rw [boundNames]
    refine c.joined (fun a => related_of_mem_nameChoicesEntries c entries
      (fun _ hp => hagree.child (.entry hp)) a) (fun b hb => ?_) h
    cases List.mem_singleton.mp hb
    exact c.refl _
  | .ofClass type positional keywords, hagree, names, h => by
    rw [nameChoices] at h
    rw [boundNames]
    exact c.joined
      (fun a => related_of_mem_nameChoicesEach c positional
        (fun _ hp => hagree.child (.positional hp)) a)
      (fun b => related_of_mem_nameChoicesKeywords c keywords
        (fun _ hp => hagree.child (.keyword hp)) b) h
  | .named pattern name, hagree, names, h => by
    rw [nameChoices] at h
    rw [boundNames]
    refine c.joined (fun a => related_of_mem_nameChoices c pattern (hagree.child .named) a)
      (fun b hb => ?_) h
    cases List.mem_singleton.mp hb
    exact c.refl [name]
  | .anyOf [], _, names, h => by
    rw [nameChoices, nameChoicesSome] at h
    cases h
  | .anyOf (first :: rest), hagree, names, h => by
    rw [nameChoices] at h
    rw [boundNames]
    obtain ⟨taken, htaken, hnames⟩ := related_of_mem_nameChoicesSome c (first :: rest)
      (fun _ hp => hagree.child (.alternative hp)) names h
    -- The alternative that was taken is the first one or agrees with it.
    rcases List.mem_cons.mp htaken with rfl | hrest
    · exact hnames
    · exact c.trans hnames (hagree first rest .refl taken hrest)

theorem related_of_mem_nameChoicesEach (c : RespectsAppend R) : (patterns : List Pattern) →
    (∀ pattern ∈ patterns, AlternativesAgree R pattern) →
    ∀ names ∈ nameChoicesEach patterns, R names (boundNamesEach patterns)
  | [], _, names, h => by
    cases List.mem_singleton.mp h
    exact c.refl []
  | pattern :: rest, hagree, names, h => by
    obtain ⟨hpattern, hrest⟩ := List.forall_mem_cons.mp hagree
    rw [nameChoicesEach] at h
    rw [boundNamesEach]
    exact c.joined (related_of_mem_nameChoices c pattern hpattern)
      (related_of_mem_nameChoicesEach c rest hrest) h

theorem related_of_mem_nameChoicesEntries (c : RespectsAppend R) :
    (entries : List (MappingKey × Pattern)) → (∀ entry ∈ entries, AlternativesAgree R entry.2) →
    ∀ names ∈ nameChoicesEntries entries, R names (boundNamesEntries entries)
  | [], _, names, h => by
    cases List.mem_singleton.mp h
    exact c.refl []
  | (_, pattern) :: rest, hagree, names, h => by
    obtain ⟨hpattern, hrest⟩ := List.forall_mem_cons.mp hagree
    rw [nameChoicesEntries] at h
    rw [boundNamesEntries]
    exact c.joined (related_of_mem_nameChoices c pattern hpattern)
      (related_of_mem_nameChoicesEntries c rest hrest) h

theorem related_of_mem_nameChoicesKeywords (c : RespectsAppend R) :
    (keywords : List (Name × Pattern)) → (∀ keyword ∈ keywords, AlternativesAgree R keyword.2) →
    ∀ names ∈ nameChoicesKeywords keywords, R names (boundNamesKeywords keywords)
  | [], _, names, h => by
    cases List.mem_singleton.mp h
    exact c.refl []
  | (_, pattern) :: rest, hagree, names, h => by
    obtain ⟨hpattern, hrest⟩ := List.forall_mem_cons.mp hagree
    rw [nameChoicesKeywords] at h
    rw [boundNamesKeywords]
    exact c.joined (related_of_mem_nameChoices c pattern hpattern)
      (related_of_mem_nameChoicesKeywords c rest hrest) h

/-- The names come from one of the alternatives. -/
theorem related_of_mem_nameChoicesSome (c : RespectsAppend R) : (alternatives : List Pattern) →
    (∀ pattern ∈ alternatives, AlternativesAgree R pattern) →
    ∀ names ∈ nameChoicesSome alternatives, ∃ taken ∈ alternatives, R names taken.boundNames
  | [], _, names, h => by
    rw [nameChoicesSome] at h
    cases h
  | pattern :: rest, hagree, names, h => by
    obtain ⟨hpattern, hrest⟩ := List.forall_mem_cons.mp hagree
    rw [nameChoicesSome] at h
    rcases List.mem_append.mp h with h | h
    · exact ⟨pattern, List.mem_cons_self, related_of_mem_nameChoices c pattern hpattern names h⟩
    · obtain ⟨taken, htaken, hnames⟩ := related_of_mem_nameChoicesSome c rest hrest names h
      exact ⟨taken, List.mem_cons_of_mem pattern htaken, hnames⟩
end

end Choices

/-! ## What validation establishes -/

/-- Two lists have the same members. -/
def SameNames (a b : List Name) : Prop := ∀ name, name ∈ a ↔ name ∈ b

theorem SameNames.respectsAppend : RespectsAppend SameNames where
  refl _ _ := Iff.rfl
  trans hab hbc name := (hab name).trans (hbc name)
  append hab hcd name := by rw [List.mem_append, List.mem_append, hab name, hcd name]

theorem perm_respectsAppend : RespectsAppend List.Perm := ⟨.refl, .trans, .append⟩

theorem eq_respectsAppend : RespectsAppend Eq where
  refl _ := rfl
  trans := Eq.trans
  append hab hcd := by rw [hab, hcd]

theorem sameMembers_iff {a b : List Name} : sameMembers a b = true ↔ SameNames a b := by
  simp only [sameMembers, Bool.and_eq_true, List.all_eq_true, decide_eq_true_eq]
  exact ⟨fun h name => ⟨h.1 name, h.2 name⟩,
    fun h => ⟨fun name => (h name).mp, fun name => (h name).mpr⟩⟩

/-- No member of a list occurs again, or before it, if there are no repeats. -/
theorem repeats_eq_nil_iff {seen names : List Name} :
    repeats seen names = [] ↔ names.Nodup ∧ ∀ name ∈ names, name ∉ seen := by
  induction names generalizing seen with
  | nil => simp [repeats]
  | cons name rest ih =>
    rw [repeats]
    split
    · rename_i hseen
      simp only [List.cons_ne_nil, false_iff]
      exact fun h => h.2 name List.mem_cons_self hseen
    · rename_i hseen
      rw [ih, List.nodup_cons, List.forall_mem_cons]
      constructor
      · rintro ⟨hnodup, hrest⟩
        refine ⟨⟨fun hname => hrest name hname List.mem_cons_self, hnodup⟩, hseen, fun other hother => ?_⟩
        exact fun h => hrest other hother (List.mem_cons_of_mem name h)
      · rintro ⟨⟨hname, hnodup⟩, -, hrest⟩
        refine ⟨hnodup, fun other hother => ?_⟩
        rw [List.mem_cons, not_or]
        exact ⟨fun h => hname (h ▸ hother), hrest other hother⟩

theorem problemsEach_eq (patterns : List Pattern) :
    problemsEach patterns = patterns.flatMap problems := by
  induction patterns with
  | nil => rfl
  | cons pattern rest ih => rw [problemsEach, ih, List.flatMap_cons]

theorem problemsKeywords_eq (keywords : List (Name × Pattern)) :
    problemsKeywords keywords = keywords.flatMap (·.2.problems) := by
  induction keywords with
  | nil => rfl
  | cons keyword rest ih => rw [problemsKeywords, ih, List.flatMap_cons]

theorem mem_problemsEntries {seen : List MapKey} {entries : List (MappingKey × Pattern)}
    {entry : MappingKey × Pattern} {kind : ProblemKind} (hentry : entry ∈ entries)
    (h : kind ∈ entry.2.problems) : kind ∈ problemsEntries seen entries := by
  induction entries generalizing seen with
  | nil => cases hentry
  | cons head rest ih =>
    obtain ⟨key, pattern⟩ := head
    cases key <;> simp only [problemsEntries, List.mem_append] <;>
      rcases List.mem_cons.mp hentry with rfl | hrest
    · exact .inl (.inr h)
    · exact .inr (ih hrest)
    · exact .inl h
    · exact .inr (ih hrest)

/-- What is wrong with a sub-pattern is reported for the pattern. -/
theorem HasChild.mem_problems {pattern child : Pattern} (hchild : pattern.HasChild child)
    {kind : ProblemKind} (h : kind ∈ child.problems) : kind ∈ pattern.problems := by
  cases hchild with
  | item hmem =>
    rw [problems]
    exact List.mem_append_right _ (problemsEach_eq _ ▸ List.mem_flatMap_of_mem hmem h)
  | entry hmem =>
    rw [problems]
    exact mem_problemsEntries hmem h
  | positional hmem =>
    rw [problems]
    exact List.mem_append_left _ (problemsEach_eq _ ▸ List.mem_flatMap_of_mem hmem h)
  | keyword hmem =>
    rw [problems]
    exact List.mem_append_right _ (problemsKeywords_eq _ ▸ List.mem_flatMap_of_mem hmem h)
  | named =>
    rw [problems]
    exact h
  | alternative hmem =>
    rw [problems]
    exact List.mem_append_left _ (problemsEach_eq _ ▸ List.mem_flatMap_of_mem hmem h)

/-- **Problems are reported from any depth.** -/
theorem Contains.mem_problems {pattern inner : Pattern} (hinside : pattern.Contains inner)
    {kind : ProblemKind} (h : kind ∈ inner.problems) : kind ∈ pattern.problems := by
  induction hinside using Relation.ReflTransGen.head_induction_on with
  | refl => exact h
  | head hchild _ ih => exact hchild.mem_problems ih

/-- **Where no alternatives are reported to differ, all of them bind the same names.** -/
theorem alternativesAgree_of_problems {pattern : Pattern}
    (h : ProblemKind.alternativesDiffer ∉ pattern.problems) :
    AlternativesAgree SameNames pattern := by
  intro first rest hinside other hother
  have hagree : alternativesDiffer (first :: rest) = false := by
    cases hdiffer : alternativesDiffer (first :: rest) with
    | false => rfl
    | true =>
      refine absurd (hinside.mem_problems ?_) h
      rw [problems, if_pos hdiffer]
      exact List.mem_append_right _ List.mem_cons_self
  rw [alternativesDiffer, List.any_eq_false] at hagree
  have hsame : sameMembers first.boundNames other.boundNames = true := by
    simpa using hagree other hother
  exact fun name => (sameMembers_iff.mp hsame name).symm

/-! ## Repeated names -/

/-- Inside the pattern no alternative behind the first one binds a name twice. -/
def LaterAlternativesLinear (pattern : Pattern) : Prop :=
  ∀ first rest, pattern.Contains (.anyOf (first :: rest)) → ∀ other ∈ rest, other.boundNames.Nodup

/-- The alternatives of a pattern are its own and those inside its sub-patterns. -/
theorem LaterAlternativesLinear.of_children {pattern : Pattern}
    (hself : ∀ first rest, pattern = .anyOf (first :: rest) → ∀ other ∈ rest, other.boundNames.Nodup)
    (hinner : ∀ child, pattern.HasChild child → child.LaterAlternativesLinear) :
    pattern.LaterAlternativesLinear := by
  intro first rest hinside
  rcases hinside.cases_head with heq | ⟨child, hchild, hdeeper⟩
  · exact hself first rest heq
  · exact hinner child hchild first rest hdeeper

theorem boundNamesEach_eq (patterns : List Pattern) :
    boundNamesEach patterns = (patterns.map boundNames).flatten := by
  induction patterns with
  | nil => rfl
  | cons pattern rest ih => rw [boundNamesEach, ih, List.map_cons, List.flatten_cons]

theorem boundNamesEntries_eq (entries : List (MappingKey × Pattern)) :
    boundNamesEntries entries = (entries.map (·.2.boundNames)).flatten := by
  induction entries with
  | nil => rfl
  | cons entry rest ih => rw [boundNamesEntries, ih, List.map_cons, List.flatten_cons]

theorem boundNamesKeywords_eq (keywords : List (Name × Pattern)) :
    boundNamesKeywords keywords = (keywords.map (·.2.boundNames)).flatten := by
  induction keywords with
  | nil => rfl
  | cons keyword rest ih => rw [boundNamesKeywords, ih, List.map_cons, List.flatten_cons]

/-- What each of some things binds is part of what all of them bind. -/
theorem sublist_flatten_map {α : Type} (names : α → List Name) {items : List α} {item : α}
    (h : item ∈ items) : List.Sublist (names item) (items.map names).flatten :=
  List.sublist_flatten_of_mem (List.mem_map_of_mem h)

/-- The names of a sub-pattern are among those of the pattern, unless it is an alternative that the first
    one speaks for. -/
theorem HasChild.sublist_or_alternative {pattern child : Pattern} (h : pattern.HasChild child) :
    List.Sublist child.boundNames pattern.boundNames ∨
      ∃ first rest, pattern = .anyOf (first :: rest) ∧ child ∈ rest := by
  cases h with
  | item hmem =>
    rw [boundNames, boundNamesEach_eq]
    exact .inl (sublist_flatten_map boundNames hmem)
  | entry hmem =>
    rw [boundNames, boundNamesEntries_eq]
    exact .inl (List.sublist_append_of_sublist_left (sublist_flatten_map (·.2.boundNames) hmem))
  | positional hmem =>
    rw [boundNames, boundNamesEach_eq]
    exact .inl (List.sublist_append_of_sublist_left (sublist_flatten_map boundNames hmem))
  | keyword hmem =>
    rw [boundNames, boundNamesKeywords_eq]
    exact .inl (List.sublist_append_of_sublist_right (sublist_flatten_map (·.2.boundNames) hmem))
  | named =>
    rw [boundNames]
    exact .inl (List.sublist_append_left _ _)
  | @alternative alternatives _ hmem =>
    cases alternatives with
    | nil => cases hmem
    | cons first rest =>
      rcases List.mem_cons.mp hmem with rfl | hrest
      · rw [boundNames]
        exact .inl (List.Sublist.refl _)
      · exact .inr ⟨first, rest, rfl, hrest⟩

/-- **If neither the pattern nor a later alternative binds a name twice, no pattern inside does.** -/
theorem nodup_of_contains {pattern inner : Pattern} (hnodup : pattern.boundNames.Nodup)
    (hlater : LaterAlternativesLinear pattern) (hinside : pattern.Contains inner) :
    inner.boundNames.Nodup := by
  -- The induction goes inwards, so that the pattern around the last step is known to be linear.
  induction hinside with
  | refl => exact hnodup
  | tail houter hchild ih =>
    rcases hchild.sublist_or_alternative with hsub | ⟨first, rest, rfl, hrest⟩
    · exact ih.sublist hsub
    · exact hlater first rest houter _ hrest

/-- **Alternatives with the same names and no repeats bind permutations of each other.** -/
theorem alternativesAgree_of_noRepeats {pattern : Pattern} (hnodup : pattern.boundNames.Nodup)
    (hlater : LaterAlternativesLinear pattern) (hsame : AlternativesAgree SameNames pattern) :
    AlternativesAgree List.Perm pattern := by
  intro first rest hinside other hother
  have hfirst : first.boundNames.Nodup := by
    have := nodup_of_contains hnodup hlater hinside
    rwa [boundNames] at this
  exact (List.perm_ext_iff_of_nodup (hlater first rest hinside other hother) hfirst).mpr
    (hsame first rest hinside other hother)

end Pattern

end StructuralMatch

import StructuralMatch.Proofs.BoundNames
import StructuralMatch.Proofs.LaneEntry

/-!
# `Proofs.StarSplit` — the item at the star takes what the other items leave

A sequence pattern with a star splits the elements of a sequence into three runs: one element for each item
before the star, one for each item behind it, and all the others for the item at the star (`StarSplit`).
There is one such split if there are enough elements, and none otherwise.

* `AllMatch` and `Stops` say what trials do that are made in turn, each with the bindings of those before it.
* `matchSequence_of_split` reduces a sequence pattern to the trials of its items on the split.
* `matchSequence_eq_ok_true_iff` says when the pattern matches, and `matchSequence_eq_iff_stops` what ends it
  otherwise.
-/

namespace StructuralMatch

namespace Matcher

/-! ## Trials in turn -/

/-- Makes trials from left to right. The first one that does not match ends the attempt. -/
def inTurn : List (MatchM Bool) → MatchM Bool
  | [] => return true
  | trial :: rest => do
    if ← trial then inTurn rest else return false

/-- **All trials match**, each from where the one before it ended. A trial adds its bindings behind the
    earlier ones. -/
inductive AllMatch : List (MatchM Bool) → Matcher → List (List (Name × Value)) → Matcher → Prop
  | nil (s : Matcher) : AllMatch [] s [] s
  | cons {trial : MatchM Bool} {rest : List (MatchM Bool)} {s t u : Matcher}
      {names : List (Name × Value)} {added : List (List (Name × Value))} :
      trial s = .ok true t → t.bindings.slots = s.bindings.slots ++ names → AllMatch rest t added u →
      AllMatch (trial :: rest) s (names :: added) u

/-- **A trial stops the attempt**: those before it match, it does not, and its result is the result. -/
def Stops (trials : List (MatchM Bool)) (s : Matcher)
    (result : EStateM.Result MatchError Matcher Bool) : Prop :=
  ∃ passed trial rest added t, trials = passed ++ trial :: rest ∧ AllMatch passed s added t ∧
    trial t = result

/-- A match of the trial only adds bindings. -/
def AddsBindings (trial : MatchM Bool) : Prop :=
  ∀ s t, trial s = .ok true t → ∃ added, t.bindings.slots = s.bindings.slots ++ added

section InTurn

variable {trial : MatchM Bool} {trials rest : List (MatchM Bool)} {s t u : Matcher}
  {added : List (List (Name × Value))} {result : EStateM.Result MatchError Matcher Bool}

/-- The bindings of the trials follow each other in the order of the trials. -/
theorem AllMatch.slots_eq (h : AllMatch trials s added u) :
    u.bindings.slots = s.bindings.slots ++ added.flatten := by
  induction h with
  | nil s => exact (List.append_nil _).symm
  | cons _ hslots _ ih => rw [ih, hslots, List.flatten_cons, List.append_assoc]

/-- After a match the other trials are made. -/
theorem inTurn_of_match (h : trial s = .ok true t) : inTurn (trial :: rest) s = inTurn rest t := by
  rw [inTurn, bind_of_ok h, if_pos rfl]

/-- After anything else they are not. -/
theorem inTurn_of_stop (h : trial s = result) (hstop : ∀ t, result ≠ .ok true t) :
    inTurn (trial :: rest) s = result := by
  rw [inTurn]
  cases hresult : result with
  | error e t => rw [bind_of_error (h.trans hresult)]
  | ok matched t =>
    cases matched with
    | false =>
      rw [bind_of_ok (h.trans hresult)]
      rfl
    | true => exact absurd hresult (hstop t)

/-- Trials that match are followed by the others. -/
theorem AllMatch.inTurn_append (h : AllMatch trials s added t) :
    inTurn (trials ++ rest) s = inTurn rest t := by
  induction h with
  | nil s => rfl
  | cons htrial _ _ ih => rw [List.cons_append, inTurn_of_match htrial, ih]

/-- **Trials in turn match if they all do.** -/
theorem inTurn_eq_ok_true_iff (hadds : ∀ trial ∈ trials, AddsBindings trial) :
    inTurn trials s = .ok true u ↔ ∃ added, AllMatch trials s added u := by
  constructor
  · intro hrun
    induction trials generalizing s with
    | nil =>
      cases hrun
      exact ⟨[], .nil _⟩
    | cons trial rest ih =>
      obtain ⟨hfirst, hrest⟩ := List.forall_mem_cons.mp hadds
      obtain ⟨matched, t, htrial, hrun⟩ := exists_of_bind_ok hrun
      cases matched with
      | false => cases hrun
      | true =>
        obtain ⟨names, hslots⟩ := hfirst s t htrial
        obtain ⟨added, hall⟩ := ih hrest hrun
        exact ⟨names :: added, .cons htrial hslots hall⟩
  · rintro ⟨added, hall⟩
    have hrun : inTurn (trials ++ []) s = inTurn [] u := hall.inTurn_append
    rw [List.append_nil] at hrun
    exact hrun

/-- **Otherwise one trial stops the attempt.** -/
theorem inTurn_eq_iff_stops (hadds : ∀ trial ∈ trials, AddsBindings trial)
    (hstop : ∀ t, result ≠ .ok true t) : inTurn trials s = result ↔ Stops trials s result := by
  constructor
  · intro hrun
    induction trials generalizing s with
    | nil => exact absurd hrun.symm (hstop s)
    | cons trial rest ih =>
      obtain ⟨hfirst, hrest⟩ := List.forall_mem_cons.mp hadds
      by_cases hmatch : ∃ t, trial s = .ok true t
      · obtain ⟨t, htrial⟩ := hmatch
        rw [inTurn_of_match htrial] at hrun
        obtain ⟨names, hslots⟩ := hfirst s t htrial
        obtain ⟨passed, culprit, others, added, u, rfl, hpassed, hculprit⟩ := ih hrest hrun
        exact ⟨trial :: passed, culprit, others, names :: added, u, rfl,
          .cons htrial hslots hpassed, hculprit⟩
      · have hends : inTurn (trial :: rest) s = trial s :=
          inTurn_of_stop rfl fun t ht => hmatch ⟨t, ht⟩
        exact ⟨[], trial, rest, [], s, rfl, .nil s, hends.symm.trans hrun⟩
  · rintro ⟨passed, culprit, others, added, t, rfl, hpassed, hculprit⟩
    rw [hpassed.inTurn_append, inTurn_of_stop hculprit hstop]

end InTurn

/-! ## The trials of items -/

/-- Matches each pattern with an element, where the first element has the given position. -/
def elementTrials (path : AccessPath) (position : Nat) (items : List Pattern)
    (elements : List Value) : List (MatchM Bool) :=
  List.zipWith (fun item element => matchPattern item element.1 (path.push (.index element.2)))
    items (elements.zipIdx position)

/-- Matches the pattern at the star with a new list of the elements from a position on. A wildcard matches
    without such a list. -/
def starTrial (path : AccessPath) (item : Pattern) (start : Nat) (middle : List Value) : MatchM Bool :=
  if item.isWildcard then return true
  else do
    let value ← newList middle
    matchPattern item value (path.push (.slice start (start + middle.length)))

/-- The trials of the items before the star, at the star and behind it. -/
def splitTrials (path : AccessPath) (items : List Pattern) {star : Nat} (hstar : star < items.length)
    (before middle after : List Value) : List (MatchM Bool) :=
  elementTrials path 0 (items.take star) before ++
    starTrial path items[star] star middle ::
      elementTrials path (star + middle.length) (items.drop (star + 1)) after

/-- Matches a pattern with its target. -/
def targetTrial (path : AccessPath) (item : Pattern) : Target → MatchM Bool
  | .part part => matchPattern item part.value (path.push part.step)
  | .slice start middle => starTrial path item start middle

theorem addsBindings_matchPattern (pattern : Pattern) (value : Value) (path : AccessPath) :
    AddsBindings (matchPattern pattern value path) := by
  intro s t hrun
  obtain ⟨added, hslots, -⟩ := exists_added_of_match hrun
  exact ⟨added, hslots⟩

theorem addsBindings_starTrial (path : AccessPath) (item : Pattern) (start : Nat)
    (middle : List Value) : AddsBindings (starTrial path item start middle) := by
  intro s u hrun
  unfold starTrial at hrun
  split at hrun
  · cases hrun
    exact ⟨[], (List.append_nil _).symm⟩
  · obtain ⟨value, t, hnew, hrun⟩ := exists_of_bind_ok hrun
    -- Making a list leaves the bindings as they are.
    cases hnew
    obtain ⟨added, hslots⟩ := addsBindings_matchPattern item _ _ _ u hrun
    exact ⟨added, hslots⟩

theorem addsBindings_splitTrials (path : AccessPath) (items : List Pattern) {star : Nat}
    (hstar : star < items.length) (before middle after : List Value) :
    ∀ trial ∈ splitTrials path items hstar before middle after, AddsBindings trial := by
  have helements (position : Nat) (items : List Pattern) (elements : List Value) :
      ∀ trial ∈ elementTrials path position items elements, AddsBindings trial := by
    intro trial htrial
    rw [elementTrials, ← List.map_uncurry_zip_eq_zipWith] at htrial
    obtain ⟨⟨item, element⟩, -, rfl⟩ := List.mem_map.mp htrial
    exact addsBindings_matchPattern item element.1 _
  refine List.forall_mem_append.mpr ⟨helements _ _ _, List.forall_mem_cons.mpr ⟨?_, helements _ _ _⟩⟩
  exact addsBindings_starTrial path items[star] star middle

/-- **Items are matched in turn** with their targets. -/
theorem matchItems_eq_inTurn {items : List Pattern} {targets : List Target} (path : AccessPath)
    (hlength : items.length = targets.length) :
    matchItems items targets path = inTurn (List.zipWith (targetTrial path) items targets) := by
  induction items generalizing targets with
  | nil =>
    rw [matchItems]
    rfl
  | cons item rest ih =>
    cases targets with
    | nil => cases hlength
    | cons target targets =>
      have hrest := ih (Nat.succ.inj hlength)
      rw [List.zipWith_cons_cons, inTurn, ← hrest]
      cases target with
      | part part => rw [matchItems, targetTrial]
      | slice start middle =>
        rw [matchItems, targetTrial, starTrial]
        split
        · rw [pure_bind, if_pos rfl]
        · rw [bind_assoc]

/-- Items with elements as their targets. -/
theorem zipWith_elementTargets (path : AccessPath) (position : Nat) (items : List Pattern)
    (elements : List Value) :
    List.zipWith (targetTrial path) items (elementTargets position elements) =
      elementTrials path position items elements := by
  rw [elementTargets_eq, List.zipWith_map_right]
  rfl

/-! ## The split -/

/-- **The split of some elements** by the item at the star of so many items. -/
structure StarSplit (count star : Nat) (elements before middle after : List Value) : Prop where
  whole : elements = before ++ middle ++ after
  before_length : before.length = star
  after_length : after.length = count - star - 1

section Split

variable {count star : Nat} {elements before middle after : List Value}

/-- There is a split if there are enough elements. -/
theorem exists_starSplit_iff (hstar : star < count) :
    (∃ before middle after, StarSplit count star elements before middle after) ↔
      count - 1 ≤ elements.length := by
  constructor
  · rintro ⟨before, middle, after, h⟩
    rw [h.whole, List.length_append, List.length_append, h.before_length, h.after_length]
    omega
  · intro h
    refine ⟨elements.take star, (elements.drop star).take (elements.length + 1 - count),
      (elements.drop star).drop (elements.length + 1 - count), ?_, ?_, ?_⟩
    · rw [List.append_assoc, List.take_append_drop, List.take_append_drop]
    · rw [List.length_take]
      omega
    · simp only [List.length_drop]
      omega

/-- There is no other split. -/
theorem StarSplit.unique {before' middle' after' : List Value}
    (h : StarSplit count star elements before middle after)
    (h' : StarSplit count star elements before' middle' after') :
    before = before' ∧ middle = middle' ∧ after = after' := by
  have hwhole : before ++ middle ++ after = before' ++ middle' ++ after' := h.whole.symm.trans h'.whole
  have hbefore : before.length = before'.length := h.before_length.trans h'.before_length.symm
  have hafter : after.length = after'.length := h.after_length.trans h'.after_length.symm
  obtain ⟨hleft, rfl⟩ := List.append_inj' hwhole hafter
  obtain ⟨rfl, rfl⟩ := List.append_inj hleft hbefore
  exact ⟨rfl, rfl, rfl⟩

/-- **The targets follow the split.** Its runs are what is cut off before the star and behind it. -/
theorem StarSplit.splitTargets_eq (h : StarSplit count star elements before middle after)
    (hstar : star < count) :
    splitTargets count elements (some star) =
      some (elementTargets 0 before ++ .slice star middle ::
        elementTargets (star + middle.length) after) := by
  obtain ⟨rfl, rfl, hafter⟩ := h
  have hwidth : (before ++ middle ++ after).length + 1 - count = middle.length := by
    simp only [List.length_append]
    omega
  have hfit : count ≤ (before ++ middle ++ after).length + 1 := by
    simp only [List.length_append]
    omega
  rw [splitTargets, if_pos ⟨hstar, hfit⟩, hwidth, List.append_assoc, List.take_left, List.drop_left,
    List.take_left, List.drop_left]

end Split

/-! ## Sequence patterns -/

/-- Matches a sequence pattern with the value at a path. -/
def matchSequence (items : List Pattern) (star : Option Nat) (value : Value) (path : AccessPath) :
    MatchM Bool := do
  match ← sequenceTargets items.length star value path with
  | none => return false
  | some targets => matchItems items targets path

section Sequence

variable {items : List Pattern} {star : Nat} {value : Value} {path : AccessPath} {s t : Matcher}
  {elements before middle after : List Value}

/-- What a sequence pattern does once the elements are found. -/
theorem matchSequence_of_look (hlook : lookElements value path s = .ok (some elements) t) :
    matchSequence items (some star) value path s =
      (match splitTargets items.length elements (some star) with
        | none => Pure.pure false
        | some targets => matchItems items targets path : MatchM Bool) t := by
  have htargets : sequenceTargets items.length (some star) value path s =
      .ok (splitTargets items.length elements (some star)) t := by
    rw [sequenceTargets_eq, bind_of_ok hlook, targetsAmong, splitElements_eq]
    rfl
  rw [matchSequence, bind_of_ok htargets]

/-- **On a split** the items are matched in turn with their elements. -/
theorem matchSequence_of_split (hlook : lookElements value path s = .ok (some elements) t)
    (hstar : star < items.length) (h : StarSplit items.length star elements before middle after) :
    matchSequence items (some star) value path s =
      inTurn (splitTrials path items hstar before middle after) t := by
  have hitems : items = items.take star ++ items[star] :: items.drop (star + 1) := by
    rw [List.getElem_cons_drop, List.take_append_drop]
  have htake : (items.take star).length = (elementTargets 0 before).length := by
    rw [length_elementTargets, h.before_length, List.length_take]
    omega
  have htargets := h.splitTargets_eq hstar
  have htrials : List.zipWith (targetTrial path) items (elementTargets 0 before ++
      .slice star middle :: elementTargets (star + middle.length) after) =
        splitTrials path items hstar before middle after := by
    rw [splitTrials, ← zipWith_elementTargets, ← zipWith_elementTargets]
    conv => lhs; rw [hitems]
    rw [List.zipWith_append htake, List.zipWith_cons_cons, targetTrial]
  rw [matchSequence_of_look hlook, htargets]
  change matchItems items _ path t = _
  rw [matchItems_eq_inTurn path (length_of_splitTargets htargets).symm, htrials]

/-- **Without a split** the pattern fails, and nothing is tried. -/
theorem matchSequence_of_short (hlook : lookElements value path s = .ok (some elements) t)
    (h : elements.length < items.length - 1) :
    matchSequence items (some star) value path s = .ok false t := by
  have htargets : splitTargets items.length elements (some star) = none := by
    rw [splitTargets, if_neg (by omega)]
  rw [matchSequence_of_look hlook, htargets]
  rfl

/-- **Without an item at the star** nothing is tried either. -/
theorem matchSequence_ne_match {u : Matcher} (h : items.length ≤ star) :
    matchSequence items (some star) value path s ≠ .ok true u := by
  intro hrun
  obtain ⟨targets, t, htargets, hrun⟩ := exists_of_bind_ok hrun
  rw [sequenceTargets_eq] at htargets
  obtain ⟨found, v, -, htargets⟩ := exists_of_bind_ok htargets
  have hnone : targetsAmong items.length (some star) found = Pure.pure none := by
    cases found with
    | none => rfl
    | some elements => rw [targetsAmong, splitElements_eq, splitTargets, if_neg (by omega)]
  rw [hnone] at htargets
  cases htargets
  cases hrun

/-- Looking at the elements binds nothing. -/
theorem bindings_of_look (h : lookElements value path s = .ok (some elements) t) :
    t.bindings = s.bindings := by
  have hplace := (looks_lookElements value path).indifferent s s.bindings s.depth
  have hsame : s.place s.bindings s.depth = s := rfl
  rw [hsame, h] at hplace
  injection hplace with _ ht
  rw [ht]
  rfl

/-- **A sequence pattern matches** if there is a split on which all items match. -/
theorem matchSequence_eq_ok_true_iff {u : Matcher}
    (hlook : lookElements value path s = .ok (some elements) t) (hstar : star < items.length) :
    matchSequence items (some star) value path s = .ok true u ↔
      ∃ before middle after added, StarSplit items.length star elements before middle after ∧
        AllMatch (splitTrials path items hstar before middle after) t added u ∧
          u.bindings.slots = s.bindings.slots ++ added.flatten := by
  constructor
  · intro hrun
    by_cases hshort : elements.length < items.length - 1
    · rw [matchSequence_of_short hlook hshort] at hrun
      cases hrun
    · obtain ⟨before, middle, after, hsplit⟩ := (exists_starSplit_iff hstar).mpr (Nat.not_lt.mp hshort)
      have hadds := addsBindings_splitTrials path items hstar before middle after
      rw [matchSequence_of_split hlook hstar hsplit, inTurn_eq_ok_true_iff hadds] at hrun
      obtain ⟨added, hall⟩ := hrun
      have hslots : u.bindings.slots = t.bindings.slots ++ added.flatten := hall.slots_eq
      rw [bindings_of_look hlook] at hslots
      exact ⟨before, middle, after, added, hsplit, hall, hslots⟩
  · rintro ⟨before, middle, after, added, hsplit, hall, -⟩
    have hadds := addsBindings_splitTrials path items hstar before middle after
    rw [matchSequence_of_split hlook hstar hsplit, inTurn_eq_ok_true_iff hadds]
    exact ⟨added, hall⟩

/-- **Otherwise there is no split, or an item stops the attempt** on the split. -/
theorem matchSequence_eq_iff_stops {result : EStateM.Result MatchError Matcher Bool}
    (hlook : lookElements value path s = .ok (some elements) t) (hstar : star < items.length)
    (hstop : ∀ u, result ≠ .ok true u) :
    matchSequence items (some star) value path s = result ↔
      (elements.length < items.length - 1 ∧ result = .ok false t) ∨
        ∃ before middle after, StarSplit items.length star elements before middle after ∧
          Stops (splitTrials path items hstar before middle after) t result := by
  constructor
  · intro hrun
    by_cases hshort : elements.length < items.length - 1
    · rw [matchSequence_of_short hlook hshort] at hrun
      exact .inl ⟨hshort, hrun.symm⟩
    · obtain ⟨before, middle, after, hsplit⟩ := (exists_starSplit_iff hstar).mpr (Nat.not_lt.mp hshort)
      have hadds := addsBindings_splitTrials path items hstar before middle after
      rw [matchSequence_of_split hlook hstar hsplit, inTurn_eq_iff_stops hadds hstop] at hrun
      exact .inr ⟨before, middle, after, hsplit, hrun⟩
  · intro hcases
    rcases hcases with ⟨hshort, rfl⟩ | ⟨before, middle, after, hsplit, hstops⟩
    · exact matchSequence_of_short hlook hshort
    · have hadds := addsBindings_splitTrials path items hstar before middle after
      rw [matchSequence_of_split hlook hstar hsplit, inTurn_eq_iff_stops hadds hstop]
      exact hstops

end Sequence

/-- **The item at the star takes what the other items leave.** A sequence pattern matches if the elements
    that it finds are split so that the items match in turn, each with its element and the item at the star
    with a new list of the others; the bindings then follow in the order of the items. If it does not match,
    there are too few elements, or the first item that does not match has ended the attempt. With a star
    that is no position of an item it never matches. -/
theorem matchSequence_star (items : List Pattern) (star : Nat) (value : Value) (path : AccessPath) :
    matchPattern (.sequence items (some star)) value path =
        descend (matchSequence items (some star) value path) ∧
      (∀ (hstar : star < items.length) (elements : List Value) (s t : Matcher),
        lookElements value path s = .ok (some elements) t →
          (∀ u, matchSequence items (some star) value path s = .ok true u ↔
            ∃ before middle after added, StarSplit items.length star elements before middle after ∧
              AllMatch (splitTrials path items hstar before middle after) t added u ∧
                u.bindings.slots = s.bindings.slots ++ added.flatten) ∧
          ∀ result, (∀ u, result ≠ .ok true u) →
            (matchSequence items (some star) value path s = result ↔
              (elements.length < items.length - 1 ∧ result = .ok false t) ∨
                ∃ before middle after, StarSplit items.length star elements before middle after ∧
                  Stops (splitTrials path items hstar before middle after) t result)) ∧
      (items.length ≤ star → ∀ s u, matchSequence items (some star) value path s ≠ .ok true u) := by
  refine ⟨?_, ?_, ?_⟩
  · rw [matchPattern]
    rfl
  · intro hstar elements s t hlook
    constructor
    · intro u
      exact matchSequence_eq_ok_true_iff hlook hstar
    · intro result hstop
      exact matchSequence_eq_iff_stops hlook hstar hstop
  · intro houtside s u
    exact matchSequence_ne_match houtside

/-- `[1, *rest, 9]` matches `[1, 2, 3, 9]`, where the star takes 2 and 3. -/
theorem matchSequence_star_rest :
    let items : List Pattern := [.literal (.int 1), .capture ⟨1⟩, .literal (.int 9)]
    let elements : List Value := [.int 1, .int 2, .int 3, .int 9]
    let s : Matcher := .ofHost .initial .empty none
    ∃ (hstar : 1 < items.length) (t u : Matcher) (added : List (List (Name × Value))),
      lookElements (.list 0 elements) .root s = .ok (some elements) t ∧
        StarSplit items.length 1 elements [.int 1] [.int 2, .int 3] [.int 9] ∧
          AllMatch (splitTrials .root items hstar [.int 1] [.int 2, .int 3] [.int 9]) t added u ∧
            u.bindings.slots = s.bindings.slots ++ added.flatten := by
  intro items elements s
  have hstar : 1 < items.length := by decide
  obtain ⟨t, hlook⟩ : ∃ t, lookElements (.list 0 elements) .root s = .ok (some elements) t := ⟨_, rfl⟩
  obtain ⟨u, hrun⟩ := exists_of_run' (s := s) (a := true)
    (x := matchSequence items (some 1) (.list 0 elements) .root) (by decide +kernel)
  have hmatches := (matchSequence_star items 1 (.list 0 elements) .root).2.1 hstar elements s t hlook
  obtain ⟨before, middle, after, added, hsplit, hall, hslots⟩ := (hmatches.1 u).mp hrun
  have hplain : StarSplit items.length 1 elements [.int 1] [.int 2, .int 3] [.int 9] := ⟨rfl, rfl, rfl⟩
  obtain ⟨rfl, rfl, rfl⟩ := hsplit.unique hplain
  exact ⟨hstar, t, u, added, hlook, hplain, hall, hslots⟩

end Matcher

end StructuralMatch

import StructuralMatch.Proofs.KeyTree
import StructuralMatch.Proofs.Retention

/-!
# `Proofs.LaneEntry` — clauses of a lane begin with the look of the lane

A sequence pattern begins by looking at the elements of its value and a mapping pattern by looking at the
entries. A lane does the same on entry. Such a look does not depend on the bindings and the depth
(`Indifferent`) and may be repeated (`Looks`). Where it finds a length or keys that a pattern excludes,
the pattern fails without doing anything else (`opens_sequence`, `opens_mapping`).
-/

namespace StructuralMatch

namespace Matcher

variable {α β : Type}

/-! ## Places -/

/-- The state with other bindings and at another depth. -/
def place (s : Matcher) (bindings : Bindings Value) (depth : Nat) : Matcher :=
  { s with bindings, depth }

/-- The result that ends with other bindings and at another depth. -/
def placed (bindings : Bindings Value) (depth : Nat) :
    EStateM.Result MatchError Matcher α → EStateM.Result MatchError Matcher α
  | .ok a t => .ok a (t.place bindings depth)
  | .error e t => .error e (t.place bindings depth)

/-- **The computation neither reads nor changes the bindings and the depth.** -/
def Indifferent (x : MatchM α) : Prop :=
  ∀ s bindings depth, x (s.place bindings depth) = placed bindings depth (x s)

namespace Indifferent

theorem pure (a : α) : Indifferent (Pure.pure a : MatchM α) := fun _ _ _ => rfl

theorem bind {x : MatchM α} {f : α → MatchM β} (hx : Indifferent x) (hf : ∀ a, Indifferent (f a)) :
    Indifferent (x >>= f) := by
  intro s bindings depth
  have hrun := hx s bindings depth
  cases h : x s with
  | ok a t =>
    rw [h] at hrun
    rw [bind_of_ok hrun, bind_of_ok h, hf a t]
  | error e t =>
    rw [h] at hrun
    rw [bind_of_error hrun, bind_of_error h]
    rfl

theorem kindOf (value : Value) : Indifferent (Matcher.kindOf value) := fun _ _ _ => rfl

theorem observe (observation : ObserverM α) : Indifferent (Matcher.observe observation) := by
  intro s bindings depth
  have hobserver : (s.place bindings depth).toObserver = s.toObserver := rfl
  unfold Matcher.observe
  rw [hobserver]
  cases observation s.toObserver <;> rfl

end Indifferent

/-! ## Looks -/

/-- **A look at a part**: it depends only on what is observed and known, and may be repeated. -/
structure Looks (look : MatchM α) : Prop where
  indifferent : Indifferent look
  level : ∀ {a s t}, look s = .ok a t → Level s t
  again : ∀ {a s t u}, look s = .ok a t → Remembers t u → look u = .ok a u

/-- The elements of a value, if it is a sequence. -/
def lookElements (value : Value) (path : AccessPath) : MatchM (Option (List Value)) := do
  if (← kindOf value).isSequence then return some (← observe (.elements path value))
  else return none

/-- The entries of a value, if it is a mapping. -/
def lookEntries (value : Value) (path : AccessPath) : MatchM (Option (MappingView Value)) := do
  if (← kindOf value).isMapping then return some (← observe (.mapping path value))
  else return none

/-- Looking where the kind of the value admits it is a look. -/
theorem looks_of_kind (value : Value) (admits : MatchKind → Bool) {slot : Slot}
    {read : NodeMemo → Option α} {keep : α → NodeMemo → NodeMemo} {question : Question α}
    (hfills : Fills slot read keep question) (path : AccessPath) :
    Looks (do
      if admits (← kindOf value) then return some (← observe (askOnce path read keep question))
      else return none) where
  indifferent := by
    refine (Indifferent.kindOf value).bind fun kind => ?_
    split
    · exact (Indifferent.observe _).bind fun a => Indifferent.pure (some a)
    · exact Indifferent.pure none
  level {a s t} h := by
    have hleads : Leads (fun _ => True) Level (fun _ => Level) (do
        if admits (← kindOf value) then return some (← observe (askOnce path read keep question))
        else return none) s fun _ _ => True := by
      refine Level.passage.bind (Level.evolution.kindOf value s) fun kind u _ _ _ => ?_
      split
      · exact Level.passage.bind (Level.look path read keep question u) fun _ _ _ _ _ =>
          Level.passage.answer trivial
      · exact Level.passage.answer trivial
    exact hleads.rel_of_ok h
  again {a s t u} h htu := by
    have hkind : kindOf value s = .ok (s.kindAt value.type) _ := kindOf_eq value s
    rw [bind_of_ok hkind] at h
    split at h
    · rename_i hadmits
      cases hlook : observe (askOnce path read keep question)
          { s with kinds := (s.kinds.resolve s.host.types value.type).2 } with
      | error e v =>
        rw [bind_of_error hlook] at h
        cases h
      | ok found v =>
        rw [bind_of_ok hlook] at h
        cases h
        have hkeeps := (Remembers.look hfills path _).rel_of_ok hlook
        rw [bind_of_ok (kindOf_again hkind (hkeeps.trans htu)), if_pos hadmits]
        rw [bind_of_ok (observe_again hfills hlook htu)]
        rfl
    · rename_i hadmits
      cases h
      rw [bind_of_ok (kindOf_again hkind htu), if_neg hadmits]
      rfl

theorem looks_lookElements (value : Value) (path : AccessPath) : Looks (lookElements value path) :=
  looks_of_kind value (·.isSequence) (fills_elements value) path

theorem looks_lookEntries (value : Value) (path : AccessPath) : Looks (lookEntries value path) :=
  looks_of_kind value (·.isMapping) (fills_mapping value) path

/-! ## Patterns that begin with a look -/

/-- **A pattern opens with a look**: it goes on with what is found, and where nothing is found, or
    something that it does not admit, it fails at once. -/
def Opens (pattern : Pattern) (value : Value) (look : MatchM (Option α)) (admits : α → Bool) : Prop :=
  ∃ rest : Option α → MatchM Bool,
    matchPattern pattern value .root = descend (look >>= rest) ∧
      rest none = Pure.pure false ∧
      ∀ found, admits found = false → rest (some found) = Pure.pure false

/-- The targets of a sequence pattern among the elements that were found. -/
def targetsAmong (count : Nat) (star : Option Nat) :
    Option (List Value) → MatchM (Option (List Target))
  | none => Pure.pure none
  | some elements => splitElements count elements star

/-- A sequence pattern goes on with its targets, if there are any. -/
def matchTargets (items : List Pattern) : Option (List Target) → MatchM Bool
  | none => Pure.pure false
  | some targets => matchItems items targets .root

/-- The parts of a mapping pattern among the entries that were found. -/
def partsAmong (keys : List MappingKey) (rest : Option Name) :
    Option (MappingView Value) → MatchM (Option (List Part × List (Value × Value)))
  | none => Pure.pure none
  | some view => do
    if sizeFits keys.length view.size rest then
      return (← presentKeys view keys).map fun found =>
        (found.map fun slot => ⟨.key slot.1, slot.2⟩, view.remaining (found.map (·.1)))
    else return none

/-- A mapping pattern goes on with its parts, if there are any. -/
def matchParts (entries : List (MappingKey × Pattern)) (rest : Option Name) :
    Option (List Part × List (Value × Value)) → MatchM Bool
  | none => Pure.pure false
  | some (parts, left) => do
    if ← matchEntries entries parts .root then
      bindRest rest left
      return true
    else return false

theorem sequenceTargets_eq (count : Nat) (star : Option Nat) (value : Value) (path : AccessPath) :
    sequenceTargets count star value path = lookElements value path >>= targetsAmong count star := by
  unfold sequenceTargets lookElements
  rw [bind_assoc]
  refine bind_congr fun kind => ?_
  split
  · rw [bind_assoc]
    exact bind_congr fun elements => (pure_bind _ _).symm
  · rw [pure_bind]
    rfl

theorem mappingParts_eq (keys : List MappingKey) (rest : Option Name) (value : Value)
    (path : AccessPath) :
    mappingParts keys rest value path = lookEntries value path >>= partsAmong keys rest := by
  unfold mappingParts lookEntries
  rw [bind_assoc]
  refine bind_congr fun kind => ?_
  split
  · rw [bind_assoc]
    exact bind_congr fun view => (pure_bind _ _).symm
  · rw [pure_bind]
    rfl

/-- **Sequence patterns open with a look at the elements.** -/
theorem opens_sequence {pattern : Pattern} {constraint : LengthConstraint}
    (h : LengthConstraint.ofPattern? pattern = some constraint) (value : Value) :
    Opens pattern value (lookElements value .root) fun elements =>
      constraint.admits elements.length := by
  cases pattern with
  | sequence items star =>
    refine ⟨fun found => targetsAmong items.length star found >>= matchTargets items, ?_, rfl, ?_⟩
    · rw [matchPattern, sequenceTargets_eq]
      exact congrArg descend (bind_assoc (lookElements value .root) _ _)
    · intro elements hlength
      have hnone : splitTargets items.length elements star = none := by
        rw [← Option.not_isSome_iff_eq_none, isSome_splitTargets h]
        simpa using hlength
      change splitElements items.length elements star >>= _ = _
      rw [splitElements_eq, hnone, pure_bind, matchTargets]
  | _ => cases h

/-- The parts that some identities find in a view, and what they leave, if the size of the view fits. -/
def partsFound (view : MappingView Value) (rest : Option Name) (keys : List MapKey) :
    Option (List Part × List (Value × Value)) :=
  if sizeFits keys.length view.size rest then
    (valuesAt view keys).map fun found =>
      (found.map fun slot => ⟨.key slot.1, slot.2⟩, view.remaining (found.map (·.1)))
  else none

theorem isSome_partsFound (view : MappingView Value) (rest : Option Name) (keys : List MapKey) :
    (partsFound view rest keys).isSome =
      (sizeFits keys.length view.size rest && keys.all view.containsKey) := by
  rw [partsFound]
  split
  · rename_i hsize
    rw [Option.isSome_map, isSome_valuesAt, hsize, Bool.true_and]
  · rename_i hsize
    rw [Bool.not_eq_true] at hsize
    rw [hsize, Bool.false_and]
    rfl

/-- Literal keys leave parts if the size fits and all of them are present. -/
theorem partsAmong_literals (view : MappingView Value) (rest : Option Name) (literals : List Literal) :
    partsAmong (literals.map .literal) rest (some view) =
      Pure.pure (partsFound view rest (literals.map Literal.mapKey)) := by
  rw [partsAmong, partsFound, List.length_map, List.length_map]
  split
  · rw [presentKeys_literals, pure_bind]
  · rfl

/-- **There are parts if the size fits and all tests hold**, and then only. -/
theorem partsAmong_of_keyTests {entries : List (MappingKey × Pattern)} {rest : Option Name}
    {tests : List KeyTest} (h : (Pattern.mapping entries rest).keyTests? = some tests)
    (view : MappingView Value) :
    ∃ parts, partsAmong (entries.map (·.1)) rest (some view) = Pure.pure parts ∧
      parts.isSome = (sizeFits entries.length view.size rest && tests.all (·.holds view)) := by
  obtain ⟨literals, hkeys, rfl⟩ := keyTests?_eq_some h
  have hlength : (literals.map Literal.mapKey).length = entries.length := by
    simpa using (congrArg List.length hkeys).symm
  refine ⟨partsFound view rest (literals.map Literal.mapKey), ?_, ?_⟩
  · rw [hkeys, partsAmong_literals]
  · have htests : ((literals.map Literal.mapKey).map KeyTest.hasKey).all (·.holds view) =
        (literals.map Literal.mapKey).all view.containsKey := List.all_map
    rw [isSome_partsFound, hlength, List.all_append, htests]
    -- Without a rest name the test on the size says that it fits.
    cases rest with
    | none => cases hsize : decide (view.size = entries.length) <;> simp [sizeFits, KeyTest.holds, hsize]
    | some name => rfl

/-- **Mapping patterns with literal keys open with a look at the entries.** -/
theorem opens_mapping {pattern : Pattern} {tests : List KeyTest} (h : pattern.keyTests? = some tests)
    (value : Value) :
    Opens pattern value (lookEntries value .root) fun view => tests.all (·.holds view) := by
  cases pattern with
  | mapping entries rest =>
    refine ⟨fun found => partsAmong (entries.map (·.1)) rest found >>= matchParts entries rest,
      ?_, rfl, ?_⟩
    · rw [matchPattern, mappingParts_eq]
      exact congrArg descend (bind_assoc (lookEntries value .root) _ _)
    · intro view htests
      obtain ⟨parts, hparts, hsome⟩ := partsAmong_of_keyTests h view
      obtain rfl : parts = none := by
        rw [← Option.not_isSome_iff_eq_none, hsome]
        simp [htests]
      change partsAmong (entries.map (·.1)) rest (some view) >>= _ = _
      rw [hparts, pure_bind, matchParts]
  | _ => cases h

end Matcher

end StructuralMatch

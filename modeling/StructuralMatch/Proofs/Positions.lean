import Mathlib.Data.Nat.PSub
import StructuralMatch.Proofs.ComponentSlots
import StructuralMatch.Proofs.Evaluation
import StructuralMatch.Proofs.LengthDispatch
import StructuralMatch.Proofs.StarSplit

/-!
# `Proofs.Positions` — every access by position is in range

The matcher cuts lists and halves tables. The same can be done by computing with positions, where it is not
plain that a list has an element at a position that was computed, that the ends of a slice lie in order and
in the list, and that no difference falls below zero. In this module `none` stands for such an access.

* `targetsByPosition_eq`, `mapM_partAt?` and `candidatesByPosition_eq` say that no access fails, and that it
  finds what the matcher finds by cutting and halving.
* `Matcher.InRange.evolution` says that no evaluation ends because a list is too short.
-/

namespace StructuralMatch

variable {α β : Type}

/-! ## Access -/

/-- The elements from one position up to another, if these lie in order and in the list. -/
def slice? (items : List α) (start stop : Nat) : Option (List α) :=
  if start ≤ stop ∧ stop ≤ items.length then some ((items.take stop).drop start) else none

/-- The middle of three runs is a slice. -/
theorem slice?_append (before middle after : List α) :
    slice? (before ++ middle ++ after) before.length (before.length + middle.length) = some middle := by
  have hstart : before.length ≤ (before ++ middle).length := (List.prefix_append before middle).length_le
  have hle : (before ++ middle).length ≤ (before ++ middle ++ after).length :=
    (List.prefix_append (before ++ middle) after).length_le
  rw [← List.length_append, slice?, if_pos ⟨hstart, hle⟩, List.take_left, List.drop_left]

/-- **A run of positions** finds the values that each of them finds. -/
theorem mapM_range' {f : Nat → Option β} {start : Nat} {values : List β}
    (h : ∀ index value, values[index]? = some value → f (start + index) = some value) :
    (List.range' start values.length).mapM f = some values := by
  induction values generalizing start with
  | nil => rfl
  | cons first rest ih =>
    have hfirst : f start = some first := h 0 first rfl
    have hrest : (List.range' (start + 1) rest.length).mapM f = some rest := by
      apply ih
      intro index value hvalue
      have hnext := h (index + 1) value hvalue
      rwa [Nat.add_comm index 1, ← Nat.add_assoc] at hnext
    rw [List.length_cons, List.range'_succ, List.mapM_cons, hfirst, hrest]
    rfl

/-! ## Sequences -/

/-- The element at a position as a target. -/
def targetAt? (elements : List Value) (index : Nat) : Option Target :=
  elements[index]?.map fun value => .part ⟨.index index, value⟩

/-- The target of the item at a position, where the item at the star takes the elements up to `stop`. Items
    behind the star count from there. -/
def splitTargetAt? (elements : List Value) (star stop index : Nat) : Option Target :=
  if index < star then targetAt? elements index
  else if index = star then (slice? elements star stop).map (.slice star)
  else do
    let behind ← (← index.psub star).psub 1
    targetAt? elements (stop + behind)

/-- **The targets of item patterns by position.** The number of the items is lowered by one only where the
    star is the position of an item. -/
def targetsByPosition (count : Nat) (elements : List Value) : Option Nat → Option (Option (List Target))
  | none =>
    if elements.length = count then ((List.range count).mapM (targetAt? elements)).map some
    else some none
  | some star =>
    if count ≤ star then some none
    else do
      if elements.length < (← count.psub 1) then return none
      let stop ← elements.length.psub (← (← count.psub star).psub 1)
      return some (← (List.range count).mapM (splitTargetAt? elements star stop))

theorem getElem?_elementTargets {position index : Nat} {items : List Value} {target : Target}
    (h : (Matcher.elementTargets position items)[index]? = some target) :
    ∃ value, items[index]? = some value ∧ target = .part ⟨.index (position + index), value⟩ := by
  rw [Matcher.elementTargets_eq, List.getElem?_map, List.getElem?_zipIdx] at h
  obtain ⟨item, hitem, rfl⟩ := Option.map_eq_some_iff.mp h
  obtain ⟨value, hvalue, rfl⟩ := Option.map_eq_some_iff.mp hitem
  exact ⟨value, hvalue, rfl⟩

/-- Positions that find elements find them as targets. -/
theorem mapM_elementTargets {f : Nat → Option Target} {start position : Nat} {items : List Value}
    (h : ∀ index value, items[index]? = some value →
      f (start + index) = some (.part ⟨.index (position + index), value⟩)) :
    (List.range' start items.length).mapM f = some (Matcher.elementTargets position items) := by
  have hlength := Matcher.length_elementTargets position items
  rw [← hlength]
  apply mapM_range'
  intro index target htarget
  obtain ⟨value, hvalue, rfl⟩ := getElem?_elementTargets htarget
  exact h index value hvalue

/-- **The positions on a split** are those of the elements before the star, the slice at the star and the
    elements behind it. -/
theorem mapM_splitTargetAt? (before middle after : List Value) :
    (List.range (before.length + 1 + after.length)).mapM (splitTargetAt? (before ++ middle ++ after)
      before.length (before.length + middle.length)) =
        some (Matcher.elementTargets 0 before ++ .slice before.length middle ::
          Matcher.elementTargets (before.length + middle.length) after) := by
  generalize hwhole : before ++ middle ++ after = elements
  generalize hstop : before.length + middle.length = stop
  have hpositions : List.range (before.length + 1 + after.length) =
      List.range' 0 before.length ++
        before.length :: List.range' (before.length + 1) after.length := by
    rw [← List.range'_succ, List.range_eq_range', Nat.add_right_comm, Nat.add_assoc,
      ← List.range'_append_1, Nat.zero_add]
  have hbefore : (List.range' 0 before.length).mapM (splitTargetAt? elements before.length stop) =
      some (Matcher.elementTargets 0 before) := by
    apply mapM_elementTargets
    intro index value hvalue
    obtain ⟨hindex, -⟩ := List.getElem?_eq_some_iff.mp hvalue
    have helement : elements[index]? = some value := by
      rw [← hwhole, List.append_assoc, List.getElem?_append_left hindex, hvalue]
    rw [Nat.zero_add, splitTargetAt?, if_pos hindex, targetAt?, helement]
    rfl
  have hmiddle : splitTargetAt? elements before.length stop before.length =
      some (.slice before.length middle) := by
    rw [splitTargetAt?, if_neg (Nat.lt_irrefl _), if_pos rfl, ← hwhole, ← hstop, slice?_append]
    rfl
  have hafter : (List.range' (before.length + 1) after.length).mapM
      (splitTargetAt? elements before.length stop) = some (Matcher.elementTargets stop after) := by
    apply mapM_elementTargets
    intro index value hvalue
    have helement : elements[stop + index]? = some value := by
      rw [← hwhole, List.getElem?_append_right (by rw [List.length_append]; omega),
        List.length_append, hstop, Nat.add_sub_cancel_left, hvalue]
    have hstar : (before.length + 1 + index).psub before.length = some (index + 1) :=
      Nat.psub_eq_some.mpr (by omega)
    have hbehind : (index + 1).psub 1 = some index := Nat.psub_eq_some.mpr rfl
    rw [splitTargetAt?, if_neg (by omega), if_neg (by omega), hstar]
    simp only [Option.bind_eq_bind, Option.bind_some, hbehind, targetAt?, helement, Option.map_some]
  rw [hpositions, List.mapM_append, List.mapM_cons, hbefore, hmiddle, hafter]
  rfl

/-- **No access by position fails on a sequence**, and it finds what cutting finds. -/
theorem targetsByPosition_eq (count : Nat) (elements : List Value) (star : Option Nat) :
    targetsByPosition count elements star = some (Matcher.splitTargets count elements star) := by
  cases star with
  | none =>
    rw [targetsByPosition, Matcher.splitTargets]
    by_cases hlength : elements.length = count
    · have hall : (List.range' 0 elements.length).mapM (targetAt? elements) =
          some (Matcher.elementTargets 0 elements) := by
        apply mapM_elementTargets
        intro index value hvalue
        rw [Nat.zero_add, targetAt?, hvalue]
        rfl
      rw [if_pos hlength, if_pos hlength, ← hlength, List.range_eq_range', hall]
      rfl
    · rw [if_neg hlength, if_neg hlength]
  | some star =>
    rw [targetsByPosition]
    by_cases hstar : star < count
    · have hone : count.psub 1 = some (count - 1) := Nat.psub_eq_sub (by omega)
      rw [if_neg (Nat.not_le.mpr hstar), hone]
      by_cases hshort : elements.length < count - 1
      · rw [Matcher.splitTargets, if_neg (by omega)]
        simp only [Option.bind_eq_bind, Option.bind_some, if_pos hshort]
        rfl
      · obtain ⟨before, middle, after, hsplit⟩ :=
          (Matcher.exists_starSplit_iff hstar).mpr (Nat.not_lt.mp hshort)
        rw [hsplit.splitTargets_eq hstar]
        obtain ⟨rfl, rfl, hafter⟩ := hsplit
        obtain rfl : count = before.length + 1 + after.length := by omega
        have hbehind : (before.length + 1 + after.length).psub before.length = some (after.length + 1) :=
          Nat.psub_eq_some.mpr (by omega)
        have htail : (after.length + 1).psub 1 = some after.length := Nat.psub_eq_some.mpr rfl
        have hstop : (before ++ middle ++ after).length.psub after.length =
            some (before.length + middle.length) :=
          Nat.psub_eq_some.mpr (by simp only [List.length_append])
        simp only [Option.bind_eq_bind, Option.bind_some, if_neg hshort, hbehind, htail, hstop,
          mapM_splitTargetAt?]
        rfl
    · rw [if_pos (Nat.not_lt.mp hstar), Matcher.splitTargets, if_neg (fun h => hstar h.1)]

/-! ## Instances -/

/-- The component at a position as a part. -/
def partAt? (components : List Value) (index : Nat) : Option Part :=
  components[index]?.map fun value => ⟨.component index, value⟩

/-- **Parts that the components have at some positions** are found at these positions. -/
theorem mapM_partAt? {components : List Value} {indices : List Nat} {parts : List Part}
    (hsteps : parts.map (·.step) = indices.map .component)
    (hamong : ∀ part ∈ parts, part.Among components) :
    indices.mapM (partAt? components) = some parts := by
  induction indices generalizing parts with
  | nil =>
    rw [List.map_eq_nil_iff.mp hsteps]
    rfl
  | cons index rest ih =>
    cases parts with
    | nil => cases hsteps
    | cons part parts =>
      rw [List.map_cons, List.map_cons] at hsteps
      obtain ⟨hstep, hrest⟩ := List.cons.inj hsteps
      obtain ⟨⟨position, hposition, hvalue⟩, hothers⟩ := List.forall_mem_cons.mp hamong
      obtain rfl : index = position := PathStep.component.inj (hstep.symm.trans hposition)
      have hpart : partAt? components index = some part := by
        rw [partAt?, hvalue, Option.map_some, ← hposition]
      rw [List.mapM_cons, hpart, ih hrest hothers]
      rfl

namespace Matcher

/-- **The declared names** for positional sub-patterns are a slice from the first one on. -/
theorem slice?_of_positionalNames {type : TypeId} {positional : Nat} {value : Value}
    {path : AccessPath} {s t : Matcher} {names : List Name} (hsome : positional ≠ 0)
    (h : positionalNames type positional value path s = .ok names t) :
    ∃ declared u, observe (.declared path value) s = .ok declared u ∧
      slice? declared 0 positional = some names := by
  unfold positionalNames at h
  rw [if_neg hsome] at h
  obtain ⟨declared, u, hdeclared, h⟩ := exists_of_bind_ok h
  split at h
  · cases h
  · rename_i hmany
    have hle : positional ≤ declared.length := Nat.not_lt.mp hmany
    rw [cutAt_of_le hle] at h
    cases h
    exact ⟨declared, _, hdeclared, by rw [slice?, if_pos ⟨Nat.zero_le _, hle⟩, List.drop_zero]⟩

end Matcher

/-! ## Tables -/

/-- The position at which a table is left with one entry if it is halved from `base` on, where so many
    entries are left. -/
def searchFrom? (beyond : α → Bool) (table : List α) : Nat → Nat → Nat → Option Nat
  | 0, base, _ => some base
  | steps + 1, base, size =>
    if size ≤ 1 then some base
    else do
      let middle ← table[base + size / 2]?
      let left ← size.psub (size / 2)
      searchFrom? beyond table steps (if beyond middle then base else base + size / 2) left

/-- A search for the position of an entry that compares as equal, or else the position to insert one. -/
def search? (order : α → Ordering) (table : List α) : Option (Except Nat Nat) :=
  if table.isEmpty then some (.error 0)
  else do
    let base ← searchFrom? (order · == .gt) table table.length 0 table.length
    let entry ← table[base]?
    return match order entry with
      | .eq => .ok base
      | .lt => .error (base + 1)
      | .gt => .error base

/-- The position behind the entries that pass a test, in a table that begins with them. -/
def partitionPoint? (passes : α → Bool) (table : List α) : Option Nat :=
  (search? (fun entry => if passes entry then .lt else .gt) table).map fun found =>
    match found with
    | .ok index => index
    | .error index => index

namespace LengthDispatch

/-- The clauses of the last threshold that a length reaches, which stands before the cut. -/
def reachedByPosition (table : List (Nat × List Nat)) (length : Nat) : Option (List Nat) := do
  match (← partitionPoint? (fun entry => entry.1 ≤ length) table).psub 1 with
  | some index => return (← table[index]?).2
  | none => return []

/-- **The clauses to try for a length, by position.** -/
def candidatesByPosition (dispatch : LengthDispatch) (length : Nat) : Option (List Nat) := do
  match ← search? (fun entry => compare entry.1 length) dispatch.exact with
  | .ok index => return (← dispatch.exact[index]?).2
  | .error _ => reachedByPosition dispatch.atLeast length

end LengthDispatch

/-- The first of the entries that are left. -/
theorem head?_take_drop {table : List α} {base size : Nat} {first : α} (hsize : 0 < size)
    (hfirst : table[base]? = some first) : ((table.drop base).take size).head? = some first := by
  rw [List.head?_take, if_neg (by omega), List.head?_drop, hfirst]

/-- **Halving by position** stays in the table. It ends at the entry that halving finds, which is the first of
    all or one that is not beyond. -/
theorem searchFrom?_eq (beyond : α → Bool) (steps : Nat) {table : List α} {base size : Nat} {first : α}
    (hsize : 0 < size) (hle : base + size ≤ table.length) (hfirst : table[base]? = some first)
    (hbase : base = 0 ∨ beyond first = false) :
    ∃ index entry, searchFrom? beyond table steps base size = some index ∧ table[index]? = some entry ∧
      (index = 0 ∨ beyond entry = false) ∧
        halve beyond ((table.drop base).take size) steps = some entry := by
  induction steps generalizing base size first with
  | zero => exact ⟨base, first, rfl, hfirst, hbase, head?_take_drop hsize hfirst⟩
  | succ steps ih =>
    have hlength : ((table.drop base).take size).length = size := by
      rw [List.length_take, List.length_drop]
      omega
    rw [searchFrom?, halve, hlength]
    by_cases hone : size ≤ 1
    · rw [if_pos hone, if_pos hone]
      exact ⟨base, first, rfl, hfirst, hbase, head?_take_drop hsize hfirst⟩
    · rw [if_neg hone, if_neg hone]
      have hleft : size.psub (size / 2) = some (size - size / 2) := Nat.psub_eq_sub (by omega)
      have hpositive : 0 < size - size / 2 := by omega
      obtain ⟨middle, hmiddle⟩ : ∃ middle, table[base + size / 2]? = some middle :=
        ⟨_, List.getElem?_eq_getElem (by omega)⟩
      have hlower : ((table.drop base).take size).take (size - size / 2) =
          (table.drop base).take (size - size / 2) := by
        rw [List.take_take, Nat.min_eq_left (by omega)]
      have hupper : ((table.drop base).take size).drop (size / 2) =
          (table.drop (base + size / 2)).take (size - size / 2) := by
        rw [List.drop_take, List.drop_drop]
      have hhead := head?_take_drop hpositive hmiddle
      rw [← hupper] at hhead
      cases hcons : ((table.drop base).take size).drop (size / 2) with
      | nil =>
        rw [hcons] at hhead
        cases hhead
      | cons entry rest =>
        rw [hcons, List.head?_cons] at hhead
        obtain rfl : entry = middle := Option.some.inj hhead
        simp only [hmiddle, hleft, hlower, hcons, Option.bind_eq_bind, Option.bind_some]
        by_cases hbeyond : beyond entry = true
        · rw [if_pos hbeyond, if_pos hbeyond]
          exact ih hpositive (by omega) hfirst hbase
        · rw [if_neg hbeyond, if_neg hbeyond, ← hcons, hupper]
          exact ih hpositive (by omega) hmiddle (.inr (Bool.eq_false_of_not_eq_true hbeyond))

/-- **The search for a position** reads the entry that halving finds. Only the first entry of all may lie
    beyond what is looked for. -/
theorem search?_eq (order : α → Ordering) {table : List α} (hsome : table ≠ []) :
    ∃ index entry, table[index]? = some entry ∧ (index = 0 ∨ order entry ≠ .gt) ∧
      halve (order · == .gt) table table.length = some entry ∧
        search? order table = some (match order entry with
          | .eq => .ok index
          | .lt => .error (index + 1)
          | .gt => .error index) := by
  have hpositive : 0 < table.length := List.length_pos_iff.mpr hsome
  obtain ⟨first, hfirst⟩ : ∃ first, table[0]? = some first := ⟨_, List.getElem?_eq_getElem hpositive⟩
  obtain ⟨index, entry, hindex, hentry, hbound, hhalve⟩ :=
    searchFrom?_eq (order · == .gt) table.length hpositive (by omega) hfirst (.inl rfl)
  rw [List.drop_zero, List.take_length] at hhalve
  refine ⟨index, entry, hentry, hbound.imp_right fun h => by simpa using h, hhalve, ?_⟩
  have hnotEmpty : ¬table.isEmpty = true := fun h => hsome (List.isEmpty_iff.mp h)
  rw [search?, if_neg hnotEmpty, hindex]
  simp only [Option.bind_eq_bind, Option.bind_some, hentry]
  rfl

/-- The cut of a table whose entries pass the test or lie beyond. -/
theorem partitionPoint?_eq (passes : α → Bool) {table : List α} (hsome : table ≠ []) :
    ∃ index entry, table[index]? = some entry ∧ (index = 0 ∨ passes entry = true) ∧
      halve (fun entry => !passes entry) table table.length = some entry ∧
        partitionPoint? passes table = some (if passes entry then index + 1 else index) := by
  obtain ⟨index, entry, hentry, hbound, hhalve, hsearch⟩ :=
    search?_eq (fun entry => if passes entry then .lt else .gt) hsome
  have hbeyond : (fun entry => (if passes entry then Ordering.lt else .gt) == .gt) =
      fun entry => !passes entry := by
    funext other
    cases passes other <;> rfl
  rw [hbeyond] at hhalve
  refine ⟨index, entry, hentry, hbound.imp_right fun h => ?_, hhalve, ?_⟩
  · by_contra hfails
    rw [if_neg hfails] at h
    exact h rfl
  · rw [partitionPoint?, hsearch]
    cases passes entry <;> rfl

namespace LengthDispatch

/-- The table of thresholds is read at the entry that halving finds, if the length reaches it. -/
theorem reachedByPosition_eq (table : List (Nat × List Nat)) (length : Nat) :
    reachedByPosition table length =
      some (((reached? table length).filter (·.1 ≤ length)).elim [] (·.2)) := by
  by_cases hnil : table = []
  · rw [hnil]
    rfl
  · obtain ⟨index, entry, hentry, hbound, hhalve, hpoint⟩ :=
      partitionPoint?_eq (fun entry => decide (entry.1 ≤ length)) hnil
    have hbeyond : (fun entry : Nat × List Nat => !decide (entry.1 ≤ length)) =
        fun entry => decide (length < entry.1) := by
      funext other
      rw [← decide_not]
      exact decide_eq_decide.mpr Nat.not_le
    have hreached : reached? table length = some entry := by
      rw [reached?, ← hbeyond, hhalve]
    rw [reachedByPosition, hpoint, hreached]
    by_cases hle : entry.1 ≤ length
    · have hfilter : (some entry).filter (·.1 ≤ length) = some entry := by
        rw [Option.filter_some, if_pos (decide_eq_true hle)]
      rw [hfilter, if_pos (decide_eq_true hle)]
      simp [hentry]
    · -- Only the first entry may lie beyond the length, and nothing stands before it.
      obtain rfl : index = 0 := hbound.resolve_right (by simpa using hle)
      have hfilter : (some entry).filter (·.1 ≤ length) = none := by
        rw [Option.filter_some, if_neg (by simpa using hle)]
      rw [hfilter, if_neg (by simpa using hle)]
      rfl

/-- **No access by position fails on a dispatch**, whatever its tables are, and it finds the candidates. -/
theorem candidatesByPosition_eq (dispatch : LengthDispatch) (length : Nat) :
    dispatch.candidatesByPosition length = some (dispatch.candidates length) := by
  rw [candidates, candidatesByPosition]
  by_cases hnil : dispatch.exact = []
  · rw [hnil]
    exact reachedByPosition_eq dispatch.atLeast length
  · obtain ⟨index, entry, hentry, -, hhalve, hsearch⟩ :=
      search?_eq (fun entry : Nat × List Nat => compare entry.1 length) hnil
    have hbeyond : (fun entry : Nat × List Nat => compare entry.1 length == .gt) =
        fun entry => decide (length < entry.1) := by
      funext other
      rw [Bool.eq_iff_iff, beq_iff_eq, decide_eq_true_iff, Nat.compare_eq_gt]
    have hreached : reached? dispatch.exact length = some entry := by
      rw [reached?, ← hbeyond, hhalve]
    rw [hsearch, hreached, Option.filter_some]
    by_cases hsame : entry.1 = length
    · rw [if_pos (decide_eq_true hsame), Nat.compare_eq_eq.mpr hsame]
      simp [hentry]
    · rw [if_neg (by simpa using hsame), ← reachedByPosition_eq]
      rcases Nat.lt_or_gt_of_ne hsame with hbelow | habove
      · rw [Nat.compare_eq_lt.mpr hbelow]
        rfl
      · rw [Nat.compare_eq_gt.mpr habove]
        rfl

end LengthDispatch

/-! ## Evaluations -/

namespace Matcher

/-- The error is not the one of a list that is too short. -/
def InRange (e : MatchError) (_ _ : Matcher) : Prop := e.isOutOfRange = false

namespace InRange

theorem look (path : AccessPath) (slot : NodeMemo → Option α) (keep : α → NodeMemo → NodeMemo)
    (question : Question α) (s : Matcher) :
    Leads (fun _ => True) (fun _ _ => True) InRange (observe (askOnce path slot keep question)) s
      fun _ _ => True :=
  leads_askOnce (fun _ _ _ => ⟨trivial, trivial, trivial⟩) (fun _ _ _ _ => ⟨trivial, trivial, trivial⟩)
    fun _ _ _ _ => rfl

/-- **No step takes a part from a list that is too short.** -/
theorem evolution : RunEvolution (fun _ => True) (fun _ _ => True) InRange :=
  ObserverEvolution.toRunEvolution {
    refl := fun _ => trivial
    trans := fun _ _ => trivial
    fails := fun _ h => h
    unchanged := fun _ _ _ => ⟨trivial, trivial⟩
    failsUnchanged := fun h _ _ => h
    thrown := fun _ h => h
    resolve := fun _ _ _ => ⟨trivial, trivial⟩
    allocate := fun _ => ⟨trivial, trivial⟩
    ask := fun _ _ _ => leads_askHost (fun _ _ _ => ⟨trivial, trivial, trivial⟩) fun _ _ _ => rfl
    elements := fun path _ _ => look path _ _ _ _
    mapping := fun path _ _ => look path _ _ _ _
    components := fun path _ _ => look path _ _ _ _
    declared := fun path _ _ => look path _ _ _ _
    fetch := fun path _ _ _ => look path _ _ _ _ }

end InRange

end Matcher

namespace Engine

open Matcher

/-- No evaluation ends because a list is too short. -/
theorem result_ne_outOfRange (engine : Engine) (strategy : Strategy) (host : Host)
    (compiled : CompiledStatement) (subject : Value) (index length : Nat) :
    (engine.matchValueWith strategy host compiled subject).result ≠ .error (.outOfRange index length) := by
  have hleads := InRange.evolution.evaluation compiled strategy subject (engine.matcher host)
  cases hrun : compiled.evaluation strategy subject (engine.matcher host) with
  | ok outcome t =>
    rw [matchValueWith_of_ok hrun]
    intro h
    cases h
  | error e t =>
    have hinRange : e.isOutOfRange = false := hleads.of_error trivial hrun
    rw [matchValueWith_of_error hrun]
    intro h
    obtain rfl : e = .outOfRange index length := Except.error.inj h
    cases hinRange

/-- **Every access is in range**, whatever the patterns, the host, the subject and the plan are. No evaluation
    ends because a list is too short, and where a value is taken apart, or the clauses for a length are
    looked up, computing with positions never fails and finds the same: the elements and the slice for the
    items of a sequence pattern, the declared names and the components for the sub-patterns of a class
    pattern, and the entries of a dispatch. -/
theorem every_access_in_range :
    (∀ (engine : Engine) (strategy : Strategy) (host : Host) (compiled : CompiledStatement)
      (subject : Value) (index length : Nat),
      (engine.matchValueWith strategy host compiled subject).result ≠ .error (.outOfRange index length)) ∧
    (∀ (count : Nat) (elements : List Value) (star : Option Nat),
      splitElements count elements star = pure (splitTargets count elements star) ∧
        targetsByPosition count elements star = some (splitTargets count elements star)) ∧
    (∀ (type : TypeId) (positional : Nat) (value : Value) (path : AccessPath) (s t : Matcher)
      (names : List Name), positional ≠ 0 →
        positionalNames type positional value path s = .ok names t →
          ∃ declared u, observe (.declared path value) s = .ok declared u ∧
            slice? declared 0 positional = some names) ∧
    (∀ (positional : Nat) (keywords : List Name) (value : Value) (path : AccessPath) (s t : Matcher)
      (first second : List Part),
      componentParts positional keywords value path s = .ok (some (first, second)) t →
        ∃ components u slots, observe (.components path value) s = .ok components u ∧
          (List.range positional ++ slots).mapM (partAt? components) = some (first ++ second)) ∧
    ∀ (dispatch : LengthDispatch) (length : Nat),
      dispatch.candidatesByPosition length = some (dispatch.candidates length) := by
  refine ⟨result_ne_outOfRange, ?_, ?_, ?_, LengthDispatch.candidatesByPosition_eq⟩
  · intro count elements star
    exact ⟨splitElements_eq count elements star, targetsByPosition_eq count elements star⟩
  · intro type positional value path s t names hsome h
    exact slice?_of_positionalNames hsome h
  · intro positional keywords value path s t first second h
    obtain ⟨components, u, slots, hcomponents, hown⟩ := ownComponents_of_componentParts h
    have hsteps : (first ++ second).map (·.step) = (List.range positional ++ slots).map .component := by
      rw [List.map_append, List.map_append, hown.first_steps, hown.second_steps]
    exact ⟨components, u, slots, hcomponents, mapM_partAt? hsteps hown.among⟩

/-- `Pair(_, b=_)` and `Pair(_, _)` on an instance with two components and the attributes `a`, `b`, `a`. -/
theorem every_access_in_range_pair :
    let a : Name := ⟨20⟩
    let b : Name := ⟨21⟩
    let pair : TypeId := ⟨9⟩
    let definition : ClassDef :=
      { name := ⟨22⟩, base := some .object, kind := some .positional, matchArgs := [a, b, a] }
    let host : Host := { Host.initial with
      types := ⟨Host.initial.types.classes ++ [⟨definition, some .positional⟩]⟩ }
    let value : Value := .object 1 pair [] [.int 1, .int 2]
    let s : Matcher := ofHost host .empty none
    (∃ first second t, componentParts 1 [b] value .root s = .ok (some (first, second)) t ∧
      ∃ components u slots, observe (.components .root value) s = .ok components u ∧
        (List.range 1 ++ slots).mapM (partAt? components) = some (first ++ second)) ∧
    ∃ names t, positionalNames pair 2 value .root s = .ok names t ∧
      ∃ declared u, observe (.declared .root value) s = .ok declared u ∧
        slice? declared 0 2 = some names := by
  intro a b pair definition host value s
  obtain ⟨-, -, hnames, hcomponents, -⟩ := every_access_in_range
  obtain ⟨first, second, t, hparts⟩ : ∃ first second t,
      componentParts 1 [b] value .root s = .ok (some (first, second)) t := ⟨_, _, _, rfl⟩
  obtain ⟨names, u, hdeclared⟩ : ∃ names u, positionalNames pair 2 value .root s = .ok names u :=
    ⟨_, _, rfl⟩
  constructor
  · exact ⟨first, second, t, hparts, hcomponents 1 [b] value .root s t first second hparts⟩
  · exact ⟨names, u, hdeclared, hnames pair 2 value .root s u names (by decide) hdeclared⟩

end Engine

end StructuralMatch

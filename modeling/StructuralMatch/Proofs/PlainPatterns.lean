import StructuralMatch.Proofs.Evaluation
import StructuralMatch.Proofs.ObjectFree

/-!
# `Proofs.PlainPatterns` — a value that does not match is no error

Some patterns ask for what may not be there: a class pattern for the attributes of an object, a value
reference for the value of an expression. The others only look at the structure of a value, and if that is
not what they need they do not match. On a value without objects they never end in an error, be they as
malformed as they may.

* `Pattern.Plain` are the patterns of the second sort.
* `Matcher.Concludes` is the judgement: from every state in which the memory holds no objects
  (`Matcher.Calm`) a computation ends with an answer, in a state of the same sort.
* `Pattern.Plain.concludes` is the result for patterns, by induction on what makes them plain, and
  `Matcher.concludes_evaluation` the one for statements.
* `Engine.plain_concludes` is the main result.
-/

namespace StructuralMatch

/-! ## Plain patterns -/

/-- **A pattern is plain** if there are no class patterns, value references and computed keys in it. -/
inductive Pattern.Plain : Pattern → Prop
  | wildcard : Plain .wildcard
  | capture (name : Name) : Plain (.capture name)
  | literal (constant : Literal) : Plain (.literal constant)
  /-- Wherever the star stands, if there is one. -/
  | sequence {items : List Pattern} (star : Option Nat) : (∀ item ∈ items, Plain item) →
      Plain (.sequence items star)
  | mapping {entries : List (MappingKey × Pattern)} (rest : Option Name) :
      (∀ entry ∈ entries, ∃ constant, entry.1 = .literal constant) → (∀ entry ∈ entries, Plain entry.2) →
      Plain (.mapping entries rest)
  | named {pattern : Pattern} (name : Name) : Plain pattern → Plain (.named pattern name)
  | anyOf {alternatives : List Pattern} : (∀ alternative ∈ alternatives, Plain alternative) →
      Plain (.anyOf alternatives)

/-- Nothing that is remembered of the structure of a part has an object in it. -/
structure NodeMemo.ObjectFree (memo : NodeMemo) : Prop where
  elements : ∀ items, memo.elements = some items → ∀ item ∈ items, item.ObjectFree
  mapping : ∀ view, memo.mapping = some view → ∀ slot ∈ view.slots, slot.2.2.ObjectFree

/-- There is no object in what a sub-pattern is matched with. -/
def Target.ObjectFree : Target → Prop
  | .part piece => piece.value.ObjectFree
  | .slice _ items => ∀ item ∈ items, item.ObjectFree

/-- Targets among object-free elements are object-free. -/
theorem Target.Among.objectFree {elements : List Value} {target : Target} (h : target.Among elements)
    (helements : ∀ item ∈ elements, item.ObjectFree) : target.ObjectFree := by
  cases target with
  | part piece => exact helements piece.value h.value_mem
  | slice start items => exact fun item hitem => helements item (h.items_subset hitem)

namespace Matcher

variable {α β : Type}

/-! ## The judgement -/

/-- **A calm state**: the depth is not limited, the classes and the known kinds came about by registration,
    and there are no objects in memory. -/
structure Calm (s : Matcher) : Prop where
  limit : s.maxDepth = none
  classes : s.host.types.Reached
  kinds : s.kinds.FilledFrom Registry.Reached
  memory : ∀ path, (s.scratch.memo path).ObjectFree

/-- **The judgement.** From every calm state the computation ends in a calm one, with an answer that meets
    `Q`. -/
def Concludes (x : MatchM α) (Q : α → Prop) : Prop :=
  ∀ s, Leads Calm (fun _ _ => True) (fun _ _ _ => False) x s fun a _ => Q a

theorem passage_calm : Passage (fun _ _ => True) (fun _ _ _ => False) where
  refl _ := trivial
  trans _ _ := trivial
  fails _ h := h

namespace Concludes

variable {P Q : α → Prop}

/-- The judgement read as it is meant. -/
theorem exists_ok {x : MatchM α} (h : Concludes x Q) {s : Matcher} (hs : Calm s) :
    ∃ a t, x s = .ok a t ∧ Calm t ∧ Q a := by
  cases hx : x s with
  | ok a t =>
    obtain ⟨ht, -, hQ⟩ := (h s).of_ok hs hx
    exact ⟨a, t, rfl, ht, hQ⟩
  | error e t => exact ((h s).of_error hs hx).elim

theorem pure {a : α} (h : Q a) : Concludes (Pure.pure a : MatchM α) Q := fun _ => passage_calm.answer h

/-- **Sequencing.** -/
theorem bind {x : MatchM α} {f : α → MatchM β} {Q : β → Prop} (hx : Concludes x P)
    (hf : ∀ a, P a → Concludes (f a) Q) : Concludes (x >>= f) Q :=
  fun s => passage_calm.bind (hx s) fun a t _ _ ha => hf a ha t

/-- A change of the bindings or the depth. -/
theorem modified {change : Matcher → Matcher} (h : ∀ s, Calm s → Calm (change s)) :
    Concludes (modify change : MatchM Unit) fun _ => True :=
  fun s hs => ⟨h s hs, trivial, trivial⟩

/-- A trial that decides whether to go on. -/
theorem goOn {trial next : MatchM Bool} (htrial : Concludes trial fun _ => True)
    (hnext : Concludes next fun _ => True) :
    Concludes (do if ← trial then next else return false) fun _ => True := by
  refine htrial.bind fun passed _ => ?_
  split
  · exact hnext
  · exact Concludes.pure trivial

/-- Without a limit every level is allowed. -/
theorem descend {inner : MatchM Bool} (h : Concludes inner fun _ => True) :
    Concludes (Matcher.descend inner) fun _ => True := by
  intro s hs
  have hlimit : s.limitReached? = none := by rw [limitReached?, hs.limit]; rfl
  obtain ⟨matched, t, hinner, ht, -⟩ := h.exists_ok (s := { s with depth := s.depth + 1 }) { hs with }
  rw [descend_of_ok hlimit hinner]
  exact ⟨{ ht with }, trivial, trivial⟩

theorem attempt {trial : MatchM Bool} (h : Concludes trial fun _ => True) :
    Concludes (Matcher.attempt trial) fun _ => True := by
  refine fun s => Leads.get_bind (h.bind (Q := fun _ => True) (fun matched _ => ?_) s)
  split
  · exact Concludes.pure trivial
  · refine Concludes.bind (Concludes.modified fun _ hs => { hs with }) fun _ _ => ?_
    exact Concludes.pure trivial

theorem bindName (name : Name) (value : Value) : Concludes (Matcher.bind name value) fun _ => True :=
  Concludes.modified fun _ hs => { hs with }

end Concludes

/-! ## Looking at a value -/

variable {value : Value} {path : AccessPath}

theorem Calm.memoryInvariant : MemoryInvariant NodeMemo.ObjectFree Calm where
  memory hs := hs.memory
  remember hs hscratch := { hs with memory := hscratch }
  record _ hs := { hs with }

/-- **A look ends with an answer** if every host gives one. -/
theorem concludes_askOnce {read : NodeMemo → Option α} {keep : α → NodeMemo → NodeMemo}
    {question : Question α} {Q : α → Prop} (hreads : ∀ memo a, memo.ObjectFree → read memo = some a → Q a)
    (hanswers : ∀ host, ∃ a, question.answer host = .ok a ∧ Q a)
    (hkeeps : ∀ memo a, memo.ObjectFree → Q a → (keep a memo).ObjectFree) :
    Concludes (observe (askOnce path read keep question)) Q := by
  intro s
  obtain ⟨a, ha, hQ⟩ := hanswers (s.host.record question.event)
  refine Calm.memoryInvariant.askOnce hreads (fun b hb => ?_) hkeeps fun e _ he _ => ?_
  · obtain rfl := Except.ok.inj (ha.symm.trans hb)
    exact hQ
  · cases ha.symm.trans he

theorem concludes_kindOf (h : value.ObjectFree) :
    Concludes (kindOf value) fun kind => kind = builtinKind value.type := by
  intro s hs
  rw [kindOf_eq]
  exact ⟨{ hs with kinds := .resolve _ hs.kinds hs.classes }, trivial,
    hs.kinds.kindIn_builtin hs.classes h.type_lt⟩

/-- **An object-free sequence has elements**, and none has an object in it. -/
theorem concludes_elements (h : value.ObjectFree) (hkind : (builtinKind value.type).isSequence = true)
    (path : AccessPath) :
    Concludes (observe (.elements path value)) fun items => ∀ item ∈ items, item.ObjectFree :=
  concludes_askOnce (fun _ _ hmemo => hmemo.elements _) (fun host => host.elementsOf_of_isSequence h hkind)
    fun _ _ hmemo hitems => { hmemo with elements := fun _ heq => Option.some.inj heq ▸ hitems }

/-- **An object-free mapping has entries**, and no value in them has an object in it. -/
theorem concludes_mapping (h : value.ObjectFree) (hkind : (builtinKind value.type).isMapping = true)
    (path : AccessPath) :
    Concludes (observe (.mapping path value)) fun view => ∀ slot ∈ view.slots, slot.2.2.ObjectFree := by
  refine concludes_askOnce (fun _ _ hmemo => hmemo.mapping _) (fun host => ?_)
    fun _ _ hmemo hview => { hmemo with mapping := fun _ heq => Option.some.inj heq ▸ hview }
  obtain ⟨entries, hentries, hfree⟩ := host.entriesOf_of_isMapping h hkind
  refine ⟨.ofEntries host.mapKey entries, by simp only [Question.mapping, hentries]; rfl, ?_⟩
  intro slot hslot
  obtain ⟨entry, hentry, rfl⟩ := List.mem_map.mp hslot
  exact hfree entry hentry

/-- There are no targets, or one without an object for each item. -/
theorem concludes_sequenceTargets (h : value.ObjectFree) (count : Nat) (star : Option Nat)
    (path : AccessPath) :
    Concludes (sequenceTargets count star value path) fun found => ∀ targets, found = some targets →
      targets.length = count ∧ ∀ target ∈ targets, target.ObjectFree := by
  unfold sequenceTargets
  refine (concludes_kindOf h).bind fun kind hkind => ?_
  subst hkind
  split
  · rename_i hsequence
    refine (concludes_elements h hsequence path).bind fun elements helements => ?_
    rw [splitElements_eq]
    exact Concludes.pure fun targets htargets => ⟨length_of_splitTargets htargets,
      fun target htarget => (among_of_splitTargets htargets target htarget).objectFree helements⟩
  · exact Concludes.pure fun _ heq => by cases heq

/-- There are no parts, or one without an object for each entry. Literal keys are looked up without a
    question that could fail. -/
theorem concludes_mappingParts (h : value.ObjectFree) (literals : List Literal) (rest : Option Name)
    (path : AccessPath) :
    Concludes (mappingParts (literals.map .literal) rest value path) fun found =>
      ∀ all, found = some all →
        all.1.length = literals.length ∧ ∀ part ∈ all.1, part.value.ObjectFree := by
  unfold mappingParts
  refine (concludes_kindOf h).bind fun kind hkind => ?_
  subst hkind
  split
  · rename_i hmapping
    refine (concludes_mapping h hmapping path).bind fun view hview => ?_
    split
    · rw [presentKeys_literals, pure_bind]
      refine Concludes.pure fun all hall => ?_
      obtain ⟨slots, hslots, rfl⟩ := Option.map_eq_some_iff.mp hall
      obtain ⟨hlength, hvalues⟩ := forall_of_valuesAt hslots
      rw [List.length_map] at hlength
      refine ⟨by rw [List.length_map, hlength], fun part hpart => ?_⟩
      obtain ⟨slot, hslot, rfl⟩ := List.mem_map.mp hpart
      obtain ⟨entry, hentry, hvalue⟩ := MappingView.exists_slot_of_get? (hvalues slot hslot)
      exact hvalue ▸ hview entry hentry
    · exact Concludes.pure fun _ heq => by cases heq
  · exact Concludes.pure fun _ heq => by cases heq

theorem concludes_matchLiteral (constant : Literal) (value : Value) :
    Concludes (matchLiteral constant value) fun _ => True := by
  intro s
  refine Leads.get_bind ?_
  split
  · exact Concludes.pure trivial s
  · exact leads_askHost (fun _ hs _ => ⟨{ hs with }, trivial, trivial⟩) fun _ _ herror => by cases herror

theorem concludes_bindRest (rest : Option Name) (left : List (Value × Value)) :
    Concludes (bindRest rest left) fun _ => True := by
  cases rest with
  | none => exact Concludes.pure trivial
  | some name =>
    have hdict : Concludes (newDict left) fun _ => True := fun s hs => ⟨{ hs with }, trivial, trivial⟩
    exact hdict.bind fun dict _ => Concludes.bindName name dict

/-! ## Patterns -/

/-- **The pattern ends with an answer on every object-free value**, at any place. -/
def ConcludesOn (pattern : Pattern) : Prop :=
  ∀ {value : Value} (path : AccessPath), value.ObjectFree →
    Concludes (matchPattern pattern value path) fun _ => True

theorem concludes_matchItems {patterns : List Pattern} (h : ∀ pattern ∈ patterns, ConcludesOn pattern)
    (path : AccessPath) {targets : List Target} (hlength : targets.length = patterns.length)
    (htargets : ∀ target ∈ targets, target.ObjectFree) :
    Concludes (matchItems patterns targets path) fun _ => True := by
  induction patterns generalizing targets with
  | nil =>
    rw [matchItems]
    exact Concludes.pure trivial
  | cons pattern rest ih =>
    obtain ⟨hpattern, hrest⟩ := List.forall_mem_cons.mp h
    cases targets with
    | nil => cases hlength
    | cons target targets =>
      obtain ⟨htarget, htargets⟩ := List.forall_mem_cons.mp htargets
      have hnext := ih hrest (Nat.succ.inj hlength) htargets
      cases target with
      | part piece =>
        rw [matchItems]
        exact (hpattern _ htarget).goOn hnext
      | slice start items =>
        have hlist : Concludes (newList items) Value.ObjectFree :=
          fun s hs => ⟨{ hs with }, trivial, Value.objectFree_list htarget⟩
        rw [matchItems]
        split
        · exact hnext
        · exact hlist.bind fun value hvalue => (hpattern _ hvalue).goOn hnext

theorem concludes_matchEntries {entries : List (MappingKey × Pattern)}
    (h : ∀ entry ∈ entries, ConcludesOn entry.2) (path : AccessPath) {parts : List Part}
    (hlength : parts.length = entries.length) (hparts : ∀ part ∈ parts, part.value.ObjectFree) :
    Concludes (matchEntries entries parts path) fun _ => True := by
  induction entries generalizing parts with
  | nil =>
    rw [matchEntries]
    exact Concludes.pure trivial
  | cons entry rest ih =>
    obtain ⟨hentry, hrest⟩ := List.forall_mem_cons.mp h
    cases parts with
    | nil => cases hlength
    | cons part parts =>
      obtain ⟨hpart, hparts⟩ := List.forall_mem_cons.mp hparts
      rw [matchEntries]
      exact (hentry _ hpart).goOn (ih hrest (Nat.succ.inj hlength) hparts)

theorem concludes_matchFirst {alternatives : List Pattern}
    (h : ∀ pattern ∈ alternatives, ConcludesOn pattern) (path : AccessPath) (hvalue : value.ObjectFree) :
    Concludes (matchFirst alternatives value path) fun _ => True := by
  induction alternatives with
  | nil =>
    rw [matchFirst]
    exact Concludes.pure trivial
  | cons pattern rest ih =>
    obtain ⟨hpattern, hrest⟩ := List.forall_mem_cons.mp h
    rw [matchFirst]
    refine (hpattern path hvalue).attempt.bind fun matched _ => ?_
    split
    · exact Concludes.pure trivial
    · exact ih hrest

/-- Keys that are all literal are the keys of some constants. -/
theorem exists_literals {entries : List (MappingKey × Pattern)}
    (h : ∀ entry ∈ entries, ∃ constant, entry.1 = .literal constant) :
    ∃ literals : List Literal, entries.map (·.1) = literals.map .literal := by
  induction entries with
  | nil => exact ⟨[], rfl⟩
  | cons entry rest ih =>
    obtain ⟨⟨constant, hconstant⟩, hrest⟩ := List.forall_mem_cons.mp h
    obtain ⟨literals, hliterals⟩ := ih hrest
    exact ⟨constant :: literals, congrArg₂ List.cons hconstant hliterals⟩

end Matcher

open Matcher in
/-- **A plain pattern ends with an answer on every object-free value.** -/
theorem Pattern.Plain.concludes {pattern : Pattern} (h : pattern.Plain) : ConcludesOn pattern := by
  induction h with
  | wildcard =>
    intro value path _
    rw [matchPattern]
    exact (Concludes.pure trivial).descend
  | capture name =>
    intro value path _
    rw [matchPattern]
    exact ((Concludes.bindName name value).bind fun _ _ => Concludes.pure trivial).descend
  | literal constant =>
    intro value path _
    rw [matchPattern]
    exact (concludes_matchLiteral constant value).descend
  | @sequence items star _ ih =>
    intro value path hvalue
    rw [matchPattern]
    refine Concludes.descend ((concludes_sequenceTargets hvalue items.length star path).bind
      fun found hfound => ?_)
    cases found with
    | none => exact Concludes.pure trivial
    | some targets =>
      obtain ⟨hlength, hfree⟩ := hfound targets rfl
      exact concludes_matchItems ih path hlength hfree
  | @mapping entries rest hkeys _ ih =>
    intro value path hvalue
    obtain ⟨literals, hliterals⟩ := exists_literals hkeys
    rw [matchPattern, hliterals]
    refine Concludes.descend ((concludes_mappingParts hvalue literals rest path).bind
      fun found hfound => ?_)
    cases found with
    | none => exact Concludes.pure trivial
    | some found =>
      obtain ⟨hlength, hfree⟩ := hfound found rfl
      have hcount : literals.length = entries.length := by
        simpa using (congrArg List.length hliterals).symm
      refine (concludes_matchEntries ih path (hlength.trans hcount) hfree).goOn ?_
      exact (concludes_bindRest rest found.2).bind fun _ _ => Concludes.pure trivial
  | @named pattern name _ ih =>
    intro value path hvalue
    rw [matchPattern]
    refine ((ih path hvalue).goOn ?_).descend
    exact (Concludes.bindName name value).bind fun _ _ => Concludes.pure trivial
  | anyOf _ ih =>
    intro value path hvalue
    rw [matchPattern]
    exact (concludes_matchFirst ih path hvalue).descend

/-! ## Statements -/

/-- No clause has a guard, and all patterns are plain. -/
def Statement.Plain (statement : Statement) : Prop :=
  ∀ clause ∈ statement.clauses, clause.pattern.Plain ∧ clause.guard = none

namespace Matcher

variable {statement : Statement} {subject : Value}

theorem concludes_resetBindings : Concludes resetBindings fun _ => True :=
  Concludes.modified fun _ hs => { hs with }

theorem concludes_takeBindings : Concludes takeBindings fun _ => True := by
  intro s
  refine Leads.get_bind (Concludes.bind concludes_resetBindings (fun _ _ => ?_) s)
  exact Concludes.pure trivial

/-- **A clause is tried without an error.** -/
theorem concludes_tryClause (h : statement.Plain) (hsubject : subject.ObjectFree) (index : Nat) :
    Concludes (tryClause statement subject index) fun _ => True := by
  unfold tryClause
  split
  · exact Concludes.pure trivial
  · rename_i clause hclause
    obtain ⟨hplain, hguard⟩ := h clause (List.mem_of_getElem? hclause)
    refine concludes_resetBindings.bind fun _ _ => ?_
    refine (hplain.concludes .root hsubject).bind fun matched _ => ?_
    split
    · exact Concludes.pure trivial
    · have hpasses : checkGuard none = Pure.pure true := rfl
      rw [hguard, hpasses, pure_bind, if_neg (by simp)]
      exact concludes_takeBindings.bind fun _ _ => Concludes.pure trivial

theorem concludes_tryEach (h : statement.Plain) (hsubject : subject.ObjectFree) (indices : List Nat) :
    Concludes (tryEach statement subject indices) fun _ => True := by
  induction indices with
  | nil => exact Concludes.pure trivial
  | cons index rest ih =>
    rw [tryEach]
    refine (concludes_tryClause h hsubject index).bind fun outcome _ => ?_
    cases outcome with
    | some outcome => exact Concludes.pure trivial
    | none => exact ih

/-- A lane looks at the subject without an error. -/
theorem concludes_stepCandidates (hsubject : subject.ObjectFree) (step : PlanStep) :
    Concludes (stepCandidates subject step) fun _ => True := by
  cases step with
  | clause index => exact Concludes.pure trivial
  | sequenceLane clauses dispatch =>
    refine (concludes_kindOf hsubject).bind fun kind hkind => ?_
    subst hkind
    split
    · rename_i hsequence
      exact (concludes_elements hsubject hsequence .root).bind fun _ _ => Concludes.pure trivial
    · exact Concludes.pure trivial
  | mappingLane clauses tree =>
    refine (concludes_kindOf hsubject).bind fun kind hkind => ?_
    subst hkind
    split
    · rename_i hmapping
      exact (concludes_mapping hsubject hmapping .root).bind fun _ _ => Concludes.pure trivial
    · exact Concludes.pure trivial

theorem concludes_runSteps (h : statement.Plain) (hsubject : subject.ObjectFree) (steps : List PlanStep) :
    Concludes (runSteps statement subject steps) fun _ => True := by
  induction steps with
  | nil => exact Concludes.pure trivial
  | cons step rest ih =>
    rw [runSteps]
    refine (concludes_stepCandidates hsubject step).bind fun indices _ => ?_
    refine (concludes_tryEach h hsubject indices).bind fun outcome _ => ?_
    cases outcome with
    | some outcome => exact Concludes.pure trivial
    | none => exact ih

/-- **A plain statement is evaluated without an error**, by either strategy and whatever the plan. -/
theorem concludes_evaluation {compiled : CompiledStatement} (h : compiled.statement.Plain)
    (hsubject : subject.ObjectFree) (strategy : Strategy) :
    Concludes (compiled.evaluation strategy subject) fun _ => True := by
  cases strategy with
  | inOrder => exact (concludes_tryEach h hsubject _).bind fun _ _ => Concludes.pure trivial
  | lanes => exact (concludes_runSteps h hsubject _).bind fun _ _ => Concludes.pure trivial

/-- Computations that all end with an answer do so one after the other. -/
theorem Concludes.mapM {x : α → MatchM β} {as : List α} (h : ∀ a ∈ as, Concludes (x a) fun _ => True) :
    Concludes (as.mapM x) fun _ => True := by
  induction as with
  | nil => exact Concludes.pure trivial
  | cons a rest ih =>
    obtain ⟨ha, hrest⟩ := List.forall_mem_cons.mp h
    rw [List.mapM_cons]
    exact ha.bind fun _ _ => (ih hrest).bind fun _ _ => Concludes.pure trivial

end Matcher

namespace Engine

variable {engine : Engine} {host : Host}

/-- Without a depth limit an evaluation starts calmly. -/
theorem calm_matcher (hclasses : host.types.Reached) (hkinds : engine.kinds.FilledFrom Registry.Reached)
    (hlimit : engine.config.maxDepth = none ∨ engine.config.maxDepth = some 0) :
    (engine.matcher host).Calm where
  limit := by
    show engine.config.maxDepth.filter (0 < ·) = none
    rcases hlimit with hnone | hzero
    · rw [hnone]
      rfl
    · rw [hzero]
      rfl
  classes := hclasses
  kinds := hkinds
  memory _ := ⟨fun _ h => (by cases h), fun _ h => (by cases h)⟩

/-- **A value that does not match is no error.** On any host with any classes, and whatever kinds are known
    from before, plain patterns tried on object-free values one after the other all end with an answer,
    wherever they are tried, if the depth is not limited. So every statement of plain clauses without guards
    has an outcome, by either strategy. -/
theorem plain_concludes (hclasses : host.types.Reached) (hkinds : engine.kinds.FilledFrom Registry.Reached)
    (hlimit : engine.config.maxDepth = none ∨ engine.config.maxDepth = some 0) :
    (∀ trials : List (Pattern × Value × AccessPath),
      (∀ trial ∈ trials, trial.1.Plain ∧ trial.2.1.ObjectFree) →
        ∃ answers t, trials.mapM (fun trial => Matcher.matchPattern trial.1 trial.2.1 trial.2.2)
          (engine.matcher host) = .ok answers t) ∧
      ∀ (compiled : CompiledStatement) (strategy : Strategy) (subject : Value),
        compiled.statement.Plain → subject.ObjectFree →
          ∃ outcome, (engine.matchValueWith strategy host compiled subject).result = .ok outcome := by
  have hcalm : (engine.matcher host).Calm := calm_matcher hclasses hkinds hlimit
  constructor
  · intro trials htrials
    have hall : Matcher.Concludes (trials.mapM fun trial =>
        Matcher.matchPattern trial.1 trial.2.1 trial.2.2) fun _ => True :=
      Matcher.Concludes.mapM fun trial htrial =>
        (htrials trial htrial).1.concludes trial.2.2 (htrials trial htrial).2
    obtain ⟨answers, t, hanswers, -, -⟩ := hall.exists_ok hcalm
    exact ⟨answers, t, hanswers⟩
  · intro compiled strategy subject hplain hsubject
    obtain ⟨outcome, t, houtcome, -, -⟩ :=
      (Matcher.concludes_evaluation hplain hsubject strategy).exists_ok hcalm
    exact ⟨outcome, by rw [matchValueWith_of_ok houtcome]⟩

/-- A class with a conflict in its kind is registered, after its kind was looked up. The first alternative
    has its star in a wrong place, and the key of the second leads to a value that the literal is not. -/
theorem plain_concludes_nested :
    let offer : Registration := .unchecked { name := ⟨20⟩, kind := some (.sequence ||| .mapping) }
    let host : Host := { Host.initial with types := Host.initial.types.after [offer] }
    let engine : Engine := ⟨{}, (KindCache.empty.resolve Host.initial.types ⟨9⟩).2⟩
    let entry : MappingKey × Pattern := (.literal (.int 2), .literal .none)
    let pattern : Pattern := .anyOf [.sequence [.wildcard] (some 5),
      .named (.sequence [.capture ⟨1⟩, .mapping [entry] (some ⟨2⟩)] (some 0)) ⟨3⟩]
    let subject : Value := .list 1 [.int 1, .dict 2 [(.int 2, .tuple 3 [])]]
    let compiled := engine.compile ⟨⟨0⟩, [⟨pattern, none, ⟨0⟩⟩]⟩
    host.types.Reached ∧ engine.kinds.FilledFrom Registry.Reached ∧ engine.config.maxDepth = none ∧
      pattern.Plain ∧ subject.ObjectFree ∧
      (∃ answers t, [(pattern, subject, AccessPath.root)].mapM
        (fun trial => Matcher.matchPattern trial.1 trial.2.1 trial.2.2) (engine.matcher host) =
          .ok answers t) ∧
      ∃ outcome, (engine.matchValueWith .lanes host compiled subject).result = .ok outcome := by
  intro offer host engine entry pattern subject compiled
  have hclasses : host.types.Reached := ⟨.initial, [offer], rfl⟩
  have hkinds : engine.kinds.FilledFrom Registry.Reached := .resolve ⟨9⟩ .empty ⟨.initial, [], rfl⟩
  have hsequence : (Pattern.sequence [.wildcard] (some 5)).Plain :=
    .sequence _ (List.forall_mem_singleton.mpr .wildcard)
  have hmapping : (Pattern.mapping [entry] (some ⟨2⟩)).Plain :=
    .mapping _ (List.forall_mem_singleton.mpr ⟨.int 2, rfl⟩) (List.forall_mem_singleton.mpr (.literal .none))
  have hnamed : (Pattern.named (.sequence [.capture ⟨1⟩, .mapping [entry] (some ⟨2⟩)] (some 0)) ⟨3⟩).Plain :=
    .named _ (.sequence _ (List.forall_mem_cons.mpr ⟨.capture _, List.forall_mem_singleton.mpr hmapping⟩))
  have hpattern : pattern.Plain :=
    .anyOf (List.forall_mem_cons.mpr ⟨hsequence, List.forall_mem_singleton.mpr hnamed⟩)
  have hnumber (n : Int) : (Value.int n).ObjectFree :=
    Value.objectFree_iff.mpr ⟨fun _ _ _ _ heq => (by cases heq), fun _ hpart => (by cases hpart)⟩
  have htuple : (Value.tuple 3 []).ObjectFree :=
    Value.objectFree_iff.mpr ⟨fun _ _ _ _ heq => (by cases heq), fun _ hpart => (by
      cases hpart with
      | tupleItem hmem => cases hmem)⟩
  have hdict : (Value.dict 2 [(.int 2, .tuple 3 [])]).ObjectFree := by
    refine Value.objectFree_iff.mpr ⟨fun _ _ _ _ heq => (by cases heq), fun _ hpart => ?_⟩
    cases hpart with
    | key hmem => exact List.mem_singleton.mp hmem ▸ hnumber 2
    | entry hmem => exact List.mem_singleton.mp hmem ▸ htuple
  have hsubject : subject.ObjectFree := by
    refine Value.objectFree_list (List.forall_mem_cons.mpr ⟨hnumber 1, ?_⟩)
    exact List.forall_mem_singleton.mpr hdict
  have hplain : compiled.statement.Plain := List.forall_mem_singleton.mpr ⟨hpattern, rfl⟩
  obtain ⟨htrials, hstatements⟩ := plain_concludes hclasses hkinds (.inl rfl)
  exact ⟨hclasses, hkinds, rfl, hpattern, hsubject,
    htrials _ (List.forall_mem_singleton.mpr ⟨hpattern, hsubject⟩),
    hstatements compiled .lanes subject hplain hsubject⟩

end Engine

end StructuralMatch

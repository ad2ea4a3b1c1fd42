import StructuralMatch.Match.Run

/-!
# `Proofs.Computation` — running the computations of a matcher

A computation of a matcher is a function of the state. This module says what its building blocks do when
they run, so that later proofs follow a computation step by step and unfold nothing below.

## Contents

* sequencing: `bind_of_ok`, `bind_of_error`, `bind_eq_bind`, and what an answer of a composed computation
  says about its parts (`exists_of_bind_ok`, `exists_of_descend_ok`, `exists_of_attempt_ok`)
* levels: `descend_of_ok`, `descend_of_error`
* questions: `Slot` and `Event.slot?`, `Question.ask_eq`, `askHost_of_answer`, `askHost_of_error`
* the memory: `Scratch.memo_visit`, `Scratch.memo_noted`, `Scratch.memo_learnt`, and the three ways in
  which a part is looked at (`askOnce_of_known`, `askOnce_of_answer`, `askOnce_of_error`)
* clauses: `Matcher.settle`, what is left to do after the pattern, and `tryClause_eq`
-/

namespace StructuralMatch

variable {α β : Type}

/-! ## Sequencing -/

namespace Matcher

/-- After an answer the rest of the computation runs. -/
theorem bind_of_ok {x : MatchM α} {f : α → MatchM β} {s t : Matcher} {a : α}
    (hx : x s = .ok a t) : (x >>= f) s = f a t := by
  change EStateM.bind x f s = f a t
  simp only [EStateM.bind, hx]

/-- After an error the rest of the computation does not run. -/
theorem bind_of_error {x : MatchM α} {f : α → MatchM β} {s t : Matcher} {e : MatchError}
    (hx : x s = .error e t) : (x >>= f) s = .error e t := by
  change EStateM.bind x f s = .error e t
  simp only [EStateM.bind, hx]

/-- Two computations with one result go on with the rest alike. -/
theorem bind_eq_bind {x y : MatchM α} {f : α → MatchM β} {s t : Matcher} (h : x s = y t) :
    (x >>= f) s = (y >>= f) t := by
  change EStateM.bind x f s = EStateM.bind y f t
  simp only [EStateM.bind, h]

/-- An answer is given in some state. -/
theorem exists_of_run' {x : MatchM α} {s : Matcher} {a : α} (h : x.run' s = some a) :
    ∃ t, x s = .ok a t := by
  unfold EStateM.run' EStateM.run at h
  cases hx : x s with
  | ok b t =>
    rw [hx] at h
    exact ⟨t, by rw [Option.some.inj h]⟩
  | error e t =>
    rw [hx] at h
    cases h

/-- An answer is given in a state of which something can be read off. -/
theorem exists_of_run'_get {x : MatchM α} (read : Matcher → β) {s : Matcher} {a : α} {b : β}
    (h : (do
      let a ← x
      return (a, read (← get))).run' s = some (a, b)) : ∃ t, x s = .ok a t ∧ read t = b := by
  obtain ⟨t, hrun⟩ := exists_of_run' h
  cases hx : x s with
  | ok a' u =>
    rw [bind_of_ok hx] at hrun
    cases hrun
    exact ⟨_, rfl, rfl⟩
  | error e u =>
    rw [bind_of_error hx] at hrun
    cases hrun

/-- A sequence that gives an answer went through an answer of its first computation. -/
theorem exists_of_bind_ok {x : MatchM α} {f : α → MatchM β} {s u : Matcher} {b : β}
    (h : (x >>= f) s = .ok b u) : ∃ a t, x s = .ok a t ∧ f a t = .ok b u := by
  cases hx : x s with
  | ok a t =>
    rw [bind_of_ok hx] at h
    exact ⟨a, t, rfl, h⟩
  | error e t =>
    rw [bind_of_error hx] at h
    cases h

/-- Where another level is allowed, an answer from one level deeper is the answer. -/
theorem descend_of_ok {inner : MatchM Bool} {s t : Matcher} {matched : Bool}
    (hlimit : s.limitReached? = none) (h : inner { s with depth := s.depth + 1 } = .ok matched t) :
    descend inner s = .ok matched { t with depth := t.depth - 1 } := by
  simp only [descend, hlimit, h]

/-- An error from one level deeper is the error. -/
theorem descend_of_error {inner : MatchM Bool} {s t : Matcher} {e : MatchError}
    (hlimit : s.limitReached? = none) (h : inner { s with depth := s.depth + 1 } = .error e t) :
    descend inner s = .error e { t with depth := t.depth - 1 } := by
  simp only [descend, hlimit, h]

/-- An answer from one level deeper is the answer, and the level is left again. -/
theorem exists_of_descend_ok {inner : MatchM Bool} {s u : Matcher} {matched : Bool}
    (h : descend inner s = .ok matched u) :
    ∃ t, inner { s with depth := s.depth + 1 } = .ok matched t ∧
      u = { t with depth := t.depth - 1 } := by
  unfold descend at h
  split at h
  · cases h
  · cases hinner : inner { s with depth := s.depth + 1 } with
    | ok result t =>
      rw [hinner] at h
      cases h
      exact ⟨t, rfl, rfl⟩
    | error e t =>
      rw [hinner] at h
      cases h

/-- A trial that gives an answer keeps its bindings only if it matches. -/
theorem exists_of_attempt_ok {trial : MatchM Bool} {s u : Matcher} {matched : Bool}
    (h : attempt trial s = .ok matched u) :
    ∃ t, trial s = .ok matched t ∧
      u = if matched then t else { t with bindings := t.bindings.truncate s.bindings.mark } := by
  obtain ⟨result, t, htrial, hrest⟩ := exists_of_bind_ok (x := trial) h
  cases result <;> cases hrest <;> exact ⟨_, htrial, rfl⟩

end Matcher

/-! ## Questions -/

/-- Something about a part that is kept in memory once the host has said it. -/
inductive Slot where
  | elements
  | mapping
  | components
  | declared
  | field (name : Name)
deriving DecidableEq

/-- The slot for the answer to a question. The answers to the other questions are not kept. -/
def Event.slot? : Event → Option Slot
  | .sequenceView _ => some .elements
  | .mappingEntries _ => some .mapping
  | .deconstruct _ => some .components
  | .matchArgs _ => some .declared
  | .getAttribute _ name => some (.field name)
  | .isInstance .. | .equals | .evalValue _ | .guard _ => none

/-- Asking writes the question down and hands the answer on. -/
theorem Question.ask_eq (question : Question α) (host : Host) :
    question.ask host = match question.answer (host.record question.event) with
      | .ok a => .ok a (host.record question.event)
      | .error e => .error e (host.record question.event) := rfl

namespace Matcher

theorem askHost_of_answer {question : Question α} {s : Matcher} {a : α}
    (h : question.answer (s.host.record question.event) = .ok a) :
    askHost question s = .ok a { s with host := s.host.record question.event } := by
  simp only [askHost, Question.ask_eq, h]

theorem askHost_of_error {question : Question α} {s : Matcher} {e : HostError}
    (h : question.answer (s.host.record question.event) = .error e) :
    askHost question s = .error (.host e) { s with host := s.host.record question.event } := by
  simp only [askHost, Question.ask_eq, h]

end Matcher

/-! ## The memory -/

namespace Scratch

/-- What is remembered about a part, where nothing is remembered about a part that was not looked at. -/
def memo (scratch : Scratch) (path : AccessPath) : NodeMemo := (scratch.node? path).getD {}

/-- A visit returns what is remembered about the part. -/
theorem visit_fst (scratch : Scratch) (path : AccessPath) :
    (scratch.visit path).1 = scratch.memo path := by
  unfold visit memo
  cases scratch.node? path <;> rfl

/-- A visit enters no question into the ledger. -/
@[simp]
theorem asked_visit (scratch : Scratch) (path : AccessPath) :
    (scratch.visit path).2.asked = scratch.asked := by
  unfold visit
  split <;> rfl

/-- A visited part has an entry. -/
theorem node?_visit_self (scratch : Scratch) (path : AccessPath) :
    (scratch.visit path).2.node? path = some (scratch.memo path) := by
  unfold visit memo
  cases hn : scratch.node? path with
  | some known => simpa using hn
  | none => simp [node?]

theorem node?_visit_of_ne (scratch : Scratch) {path other : AccessPath} (h : other ≠ path) :
    (scratch.visit path).2.node? other = scratch.node? other := by
  unfold visit
  cases scratch.node? path with
  | some known => rfl
  | none => simp [node?, Ne.symm h]

/-- A visit changes nothing of what is remembered. -/
@[simp]
theorem memo_visit (scratch : Scratch) (path other : AccessPath) :
    (scratch.visit path).2.memo other = scratch.memo other := by
  by_cases h : other = path
  · rw [h]
    simp only [memo, node?_visit_self, Option.getD_some]
  · simp only [memo, node?_visit_of_ne scratch h]

/-- A part with an entry that is visited again is left as it is. -/
theorem visit_of_node? {scratch : Scratch} {path : AccessPath} {known : NodeMemo}
    (h : scratch.node? path = some known) : scratch.visit path = (known, scratch) := by
  simp only [visit, h]

theorem node?_update (scratch : Scratch) (path other : AccessPath) (change : NodeMemo → NodeMemo) :
    (scratch.update path change).node? other =
      (scratch.node? other).map (if other = path then change else id) := by
  unfold update node?
  induction scratch.nodes with
  | nil => rfl
  | cons node rest ih =>
    by_cases hn : node.1 = other
    · by_cases hp : other = path <;> simp [hn, hp]
    · have hkey : (if node.1 = path then (node.1, change node.2) else node).1 = node.1 := by
        split <;> rfl
      simp only [List.map_cons, List.find?_cons, hkey, hn, decide_false]
      exact ih

/-- The memory after a question about a part was written into the ledger. -/
def noted (scratch : Scratch) (path : AccessPath) (event : Event) : Scratch :=
  (scratch.visit path).2.noteAsked path event

/-- The memory after a question about a part was answered and the answer was kept. -/
def learnt (scratch : Scratch) (path : AccessPath) (event : Event)
    (change : NodeMemo → NodeMemo) : Scratch :=
  (scratch.noted path event).update path change

@[simp]
theorem asked_noted (scratch : Scratch) (path : AccessPath) (event : Event) :
    (scratch.noted path event).asked = (path, event) :: scratch.asked := by
  simp only [noted, noteAsked, asked_visit]

@[simp]
theorem asked_learnt (scratch : Scratch) (path : AccessPath) (event : Event)
    (change : NodeMemo → NodeMemo) :
    (scratch.learnt path event change).asked = (path, event) :: scratch.asked :=
  asked_noted scratch path event

/-- The ledger is no part of what is remembered. -/
@[simp]
theorem memo_noted (scratch : Scratch) (path other : AccessPath) (event : Event) :
    (scratch.noted path event).memo other = scratch.memo other :=
  scratch.memo_visit path other

/-- **A kept answer changes one part only.** -/
theorem memo_learnt (scratch : Scratch) (path other : AccessPath) (event : Event)
    (change : NodeMemo → NodeMemo) :
    (scratch.learnt path event change).memo other =
      if other = path then change (scratch.memo path) else scratch.memo other := by
  by_cases h : other = path
  · have hself : (scratch.noted path event).node? path = some (scratch.memo path) :=
      node?_visit_self scratch path
    rw [h]
    simp only [memo, learnt, node?_update, hself, Option.map_some, if_true, Option.getD_some]
  · have hother : (scratch.noted path event).node? other = scratch.node? other :=
      node?_visit_of_ne scratch h
    simp only [memo, learnt, node?_update, hother, if_neg h, Option.map_id, id]

end Scratch

/-! ## Looking at a part -/

section AskOnce

variable {path : AccessPath} {slot : NodeMemo → Option α} {keep : α → NodeMemo → NodeMemo}
  {question : Question α} {a : α}

/-- What is remembered is not asked for. -/
theorem askOnce_of_known (observer : Observer) (h : slot (observer.scratch.memo path) = some a) :
    askOnce path slot keep question observer =
      .ok a { observer with scratch := (observer.scratch.visit path).2 } := by
  simp only [askOnce, Scratch.visit_fst, h]

/-- What is not remembered is asked for, and an answer is kept. -/
theorem askOnce_of_answer (observer : Observer)
    (hslot : slot (observer.scratch.memo path) = none)
    (h : question.answer (observer.host.record question.event) = .ok a) :
    askOnce path slot keep question observer =
      .ok a ⟨observer.host.record question.event,
        observer.scratch.learnt path question.event (keep a)⟩ := by
  simp only [askOnce, Scratch.visit_fst, hslot, Question.ask_eq, h]
  rfl

/-- An error is not kept. -/
theorem askOnce_of_error (observer : Observer) {e : HostError}
    (hslot : slot (observer.scratch.memo path) = none)
    (h : question.answer (observer.host.record question.event) = .error e) :
    askOnce path slot keep question observer =
      .error e ⟨observer.host.record question.event,
        observer.scratch.noted path question.event⟩ := by
  simp only [askOnce, Scratch.visit_fst, hslot, Question.ask_eq, h]
  rfl

end AskOnce

/-! ## Clauses -/

namespace Matcher

/-- The state without bindings. -/
def cleared (s : Matcher) : Matcher := { s with bindings := .empty }

/-- What is left to do for a clause after its pattern. -/
def settle (index : Nat) (clause : Clause) (matched : Bool) : MatchM (Option Outcome) := do
  if !matched then return none
  if !(← checkGuard clause.guard) then
    resetBindings
    return none
  return some (.matched index clause.body (← takeBindings))

/-- **A clause is tried without bindings**, first its pattern and then the rest. -/
theorem tryClause_eq {statement : Statement} {index : Nat} {clause : Clause}
    (hclause : statement.clauses[index]? = some clause) (subject : Value) (s : Matcher) :
    tryClause statement subject index s =
      (matchPattern clause.pattern subject .root >>= settle index clause) s.cleared := by
  unfold tryClause
  rw [hclause]
  rfl

/-- An index that no clause has is passed over. -/
theorem tryClause_of_noClause {statement : Statement} {index : Nat}
    (hclause : statement.clauses[index]? = none) (subject : Value) (s : Matcher) :
    tryClause statement subject index s = .ok none s := by
  unfold tryClause
  rw [hclause]
  rfl

end Matcher

end StructuralMatch

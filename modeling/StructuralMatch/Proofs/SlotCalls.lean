import StructuralMatch.Proofs.Computation

/-!
# `Proofs.SlotCalls` — the first answer for a slot is the last

The elements, the mapping view, the components, the declared attributes and every attribute of a part have
a slot each, and there are five ways to look at a part, one for each kind of slot. This module follows any
sequence of such looks (`SlotCall`), with any paths and values, also where a path is looked at with
different values and where the host fails.

* One call is described by three equations: its reply (`SlotCall.reply_eq`), the memory after it
  (`SlotCall.remembered_reply`) and the host after it (`SlotCall.host_reply`). They speak of the slot of
  the call and of no other.
* From these follows what a sequence keeps: `SlotCall.transcript_filter_of_agree` says that the calls for
  one slot do not notice the others, and `SlotCall.writtenOnce` gathers the laws of a slot.
-/

namespace StructuralMatch

/-- A question whose answer is read in another way. -/
def Question.as {α β : Type} (question : Question α) (wrap : α → β) : Question β where
  event := question.event
  answer host := (question.answer host).map wrap

/-! ## Slots -/

/-- What is kept in a slot. -/
inductive SlotAnswer where
  | elements (items : List Value)
  | mapping (view : MappingView Value)
  | components (items : List Value)
  | declared (names : List Name)
  /-- An attribute, or that there is none. -/
  | field (found : Option Value)

/-- What a memo has in a slot. -/
def NodeMemo.remembered (memo : NodeMemo) : Slot → Option SlotAnswer
  | .elements => memo.elements.map .elements
  | .mapping => memo.mapping.map .mapping
  | .components => memo.components.map .components
  | .declared => memo.declared.map .declared
  | .field name => (memo.attributes.lookup name).map .field

/-- What is remembered for a slot of a part. -/
def Scratch.remembered (scratch : Scratch) (key : AccessPath × Slot) : Option SlotAnswer :=
  (scratch.memo key.1).remembered key.2

theorem Scratch.remembered_empty (key : AccessPath × Slot) : Scratch.empty.remembered key = none := by
  obtain ⟨path, slot⟩ := key
  cases slot <;> rfl

/-! ## Calls -/

/-- A look at one slot of a part, with the value that the host is asked about if need be. -/
structure SlotCall where
  path : AccessPath
  slot : Slot
  value : Value

/-- What comes of a call: the answer or an error, and the events that the host wrote down meanwhile. -/
structure Reply where
  answer : Except HostError SlotAnswer
  events : List Event

namespace SlotCall

/-- What a call is about. -/
def key (call : SlotCall) : AccessPath × Slot := (call.path, call.slot)

/-- The call. -/
def run (call : SlotCall) : ObserverM SlotAnswer :=
  match call.slot with
  | .elements => .elements <$> ObserverM.elements call.path call.value
  | .mapping => .mapping <$> ObserverM.mapping call.path call.value
  | .components => .components <$> ObserverM.components call.path call.value
  | .declared => .declared <$> ObserverM.declared call.path call.value
  | .field name => .field <$> ObserverM.attribute? call.path call.value name

/-- What the host is asked if the slot is empty. -/
def question (call : SlotCall) : Question SlotAnswer :=
  match call.slot with
  | .elements => (Question.elements call.value).as .elements
  | .mapping => (Question.mapping call.value).as .mapping
  | .components => (Question.components call.value).as .components
  | .declared => (Question.matchArgs call.value.type).as .declared
  | .field name => (Question.fetch call.value name).as .field

/-- What comes of a call, and the state after it. -/
def reply (call : SlotCall) (observer : Observer) : Reply × Observer :=
  let result : Except HostError SlotAnswer × Observer :=
    match call.run observer with
    | .ok a after => (.ok a, after)
    | .error e after => (.error e, after)
  (⟨result.1, result.2.host.log.toList.drop observer.host.log.size⟩, result.2)

/-- The state after some calls, whatever becomes of each of them. -/
def afterCalls (observer : Observer) (calls : List SlotCall) : Observer :=
  calls.foldl (fun observer call => (call.reply observer).2) observer

/-- Some calls, each with its reply. -/
def transcript (observer : Observer) : List SlotCall → List (SlotCall × Reply)
  | [] => []
  | call :: rest => (call, (call.reply observer).1) :: transcript (call.reply observer).2 rest

/-! ## One call -/

variable {call : SlotCall} {observer : Observer} {answer : SlotAnswer} {e : HostError}

/-- **How a call uses its slot**: it looks there first, and keeps an answer there and nowhere else. -/
structure Uses {α : Type} (call : SlotCall) (read : NodeMemo → Option α) (keep : α → NodeMemo → NodeMemo)
    (question : Question α) (wrap : α → SlotAnswer) : Prop where
  run : call.run = wrap <$> askOnce call.path read keep question
  asks : call.question = question.as wrap
  reads : ∀ memo : NodeMemo, memo.remembered call.slot = (read memo).map wrap
  keeps : ∀ a memo slot, (keep a memo).remembered slot =
    if slot = call.slot then some (wrap a) else memo.remembered slot

theorem exists_uses (call : SlotCall) : ∃ (α : Type) (read : NodeMemo → Option α)
    (keep : α → NodeMemo → NodeMemo) (question : Question α) (wrap : α → SlotAnswer),
    call.Uses read keep question wrap := by
  obtain ⟨path, slot, value⟩ := call
  cases slot with
  | elements => exact ⟨_, _, _, _, _, rfl, rfl, fun _ => rfl, fun a memo slot => by cases slot <;> rfl⟩
  | mapping => exact ⟨_, _, _, _, _, rfl, rfl, fun _ => rfl, fun a memo slot => by cases slot <;> rfl⟩
  | components => exact ⟨_, _, _, _, _, rfl, rfl, fun _ => rfl, fun a memo slot => by cases slot <;> rfl⟩
  | declared => exact ⟨_, _, _, _, _, rfl, rfl, fun _ => rfl, fun a memo slot => by cases slot <;> rfl⟩
  | field name =>
    refine ⟨_, _, _, _, _, rfl, rfl, fun _ => rfl, fun found memo slot => ?_⟩
    cases slot with
    | field other =>
      by_cases h : other = name
      · simp [NodeMemo.remembered, h]
      · have hne : (other == name) = false := beq_false_of_ne h
        simp [NodeMemo.remembered, List.lookup_cons, hne, h]
    | _ => rfl

/-- What the host says does not depend on its log. -/
theorem answer_withLog (call : SlotCall) (host : Host) (log : Array Event) :
    call.question.answer { host with log } = call.question.answer host := by
  obtain ⟨path, slot, value⟩ := call
  cases slot <;> rfl

/-- **What a call does.** A filled slot gives its answer. An empty one is put to the host, and is filled with
    an answer and left empty by an error. -/
theorem run_cases (call : SlotCall) (observer : Observer) :
    (∃ answer, observer.scratch.remembered call.key = some answer ∧
      call.run observer =
        .ok answer { observer with scratch := (observer.scratch.visit call.path).2 }) ∨
    (observer.scratch.remembered call.key = none ∧
      ∃ answer change, call.question.answer observer.host = .ok answer ∧
        (∀ memo slot, (change memo : NodeMemo).remembered slot =
          if slot = call.slot then some answer else memo.remembered slot) ∧
        call.run observer = .ok answer ⟨observer.host.record call.question.event,
          observer.scratch.learnt call.path call.question.event change⟩) ∨
    (observer.scratch.remembered call.key = none ∧
      ∃ e, call.question.answer observer.host = .error e ∧
        call.run observer = .error e ⟨observer.host.record call.question.event,
          observer.scratch.noted call.path call.question.event⟩) := by
  rw [← call.answer_withLog observer.host (observer.host.record call.question.event).log]
  obtain ⟨α, read, keep, question, wrap, huses⟩ := call.exists_uses
  have hremembered : observer.scratch.remembered call.key =
      (read (observer.scratch.memo call.path)).map wrap := huses.reads _
  have hrun (observer : Observer) : call.run observer =
      EStateM.map wrap (askOnce call.path read keep question) observer := by
    rw [huses.run]
    rfl
  rw [huses.asks, hremembered, hrun, EStateM.map]
  cases hread : read (observer.scratch.memo call.path) with
  | some a =>
    rw [askOnce_of_known observer hread]
    exact .inl ⟨wrap a, rfl, rfl⟩
  | none =>
    cases hasked : question.answer (observer.host.record question.event) with
    | ok a =>
      rw [askOnce_of_answer observer hread hasked]
      refine .inr (.inl ⟨rfl, wrap a, keep a, ?_, huses.keeps a, rfl⟩)
      exact congrArg (Except.map wrap) hasked
    | error e =>
      rw [askOnce_of_error observer hread hasked]
      exact .inr (.inr ⟨rfl, e, congrArg (Except.map wrap) hasked, rfl⟩)

theorem drop_log_record (host : Host) (event : Event) :
    (host.record event).log.toList.drop host.log.size = [event] := by
  simp [Host.record]

/-- **The reply to a call** depends on what is remembered for its slot, and else on what the host knows. -/
theorem reply_eq (call : SlotCall) (observer : Observer) :
    (call.reply observer).1 =
      match observer.scratch.remembered call.key with
      | some answer => ⟨.ok answer, []⟩
      | none => ⟨call.question.answer observer.host, [call.question.event]⟩ := by
  rw [reply]
  rcases call.run_cases observer with
    ⟨answer, hknown, hrun⟩ | ⟨hempty, answer, change, hanswer, -, hrun⟩ | ⟨hempty, e, herror, hrun⟩
  · simp [hrun, hknown]
  · simp [hrun, hempty, hanswer, drop_log_record]
  · simp [hrun, hempty, herror, drop_log_record]

/-- **The host after a call** has written its events down. -/
theorem host_reply (call : SlotCall) (observer : Observer) :
    (call.reply observer).2.host =
      { observer.host with log := observer.host.log ++ (call.reply observer).1.events } := by
  rw [reply_eq, reply]
  rcases call.run_cases observer with
    ⟨answer, hknown, hrun⟩ | ⟨hempty, answer, change, -, -, hrun⟩ | ⟨hempty, e, -, hrun⟩
  · simp [hrun, hknown]
  · simp [hrun, hempty, Host.record]
  · simp [hrun, hempty, Host.record]

/-- **The memory after a call**: its slot is filled if it was or if the host had an answer, and the others
    are as they were. -/
theorem remembered_reply (call : SlotCall) (observer : Observer) (key : AccessPath × Slot) :
    (call.reply observer).2.scratch.remembered key =
      if key = call.key then
        (observer.scratch.remembered call.key).or (call.question.answer observer.host).toOption
      else observer.scratch.remembered key := by
  rw [reply]
  rcases call.run_cases observer with
    ⟨answer, hknown, hrun⟩ | ⟨hempty, answer, change, hanswer, hchange, hrun⟩ | ⟨hempty, e, herror, hrun⟩
  · have hsame : (observer.scratch.visit call.path).2.remembered key = observer.scratch.remembered key :=
      congrArg (NodeMemo.remembered · key.2) (observer.scratch.memo_visit call.path key.1)
    simp only [hrun, hsame, hknown, Option.some_or]
    split <;> simp_all
  · simp only [hrun, hempty, hanswer, Option.none_or, Except.toOption]
    obtain ⟨path, slot⟩ := key
    rw [Scratch.remembered, Scratch.memo_learnt]
    by_cases hpath : path = call.path
    · rw [if_pos hpath, hchange, Scratch.remembered, hpath]
      simp [SlotCall.key]
    · rw [if_neg hpath, if_neg fun heq => hpath (congrArg Prod.fst heq)]
      rfl
  · have hsame : (observer.scratch.noted call.path call.question.event).remembered key =
        observer.scratch.remembered key :=
      congrArg (NodeMemo.remembered · key.2) (observer.scratch.memo_noted call.path key.1 _)
    simp only [hrun, hsame, hempty, herror, Option.none_or, Except.toOption]
    split <;> simp_all

/-- A call that fails changes nothing that is remembered. -/
theorem memo_reply_of_error (h : (call.reply observer).1.answer = .error e) (path : AccessPath) :
    (call.reply observer).2.scratch.memo path = observer.scratch.memo path := by
  rw [reply] at h ⊢
  rcases call.run_cases observer with
    ⟨answer, -, hrun⟩ | ⟨-, answer, change, -, -, hrun⟩ | ⟨-, e, -, hrun⟩
  · simp [hrun] at h
  · simp [hrun] at h
  · simp only [hrun]
    exact observer.scratch.memo_noted call.path path call.question.event

/-! ## Two states -/

/-- **Two states that calls for one slot cannot tell apart**: they remember the same for the slot, and their
    hosts differ in the log only. -/
structure Agree (key : AccessPath × Slot) (observer other : Observer) : Prop where
  remembered : observer.scratch.remembered key = other.scratch.remembered key
  host : ∃ log, observer.host = { other.host with log }

namespace Agree

variable {key : AccessPath × Slot} {other third : Observer}

theorem refl (key : AccessPath × Slot) (observer : Observer) : Agree key observer observer :=
  ⟨rfl, observer.host.log, rfl⟩

theorem trans (h : Agree key observer other) (h' : Agree key other third) : Agree key observer third := by
  obtain ⟨log, hlog⟩ := h.host
  obtain ⟨log', hlog'⟩ := h'.host
  exact ⟨h.remembered.trans h'.remembered, log, by rw [hlog, hlog']⟩

theorem answer_eq (h : Agree key observer other) (call : SlotCall) :
    call.question.answer observer.host = call.question.answer other.host := by
  obtain ⟨log, hlog⟩ := h.host
  rw [hlog, call.answer_withLog]

/-- A call for another slot is not noticed. -/
theorem of_other (h : call.key ≠ key) (observer : Observer) :
    Agree key (call.reply observer).2 observer where
  remembered := by rw [remembered_reply, if_neg h.symm]
  host := ⟨_, host_reply call observer⟩

/-- A call that fails is not noticed either. -/
theorem of_error (h : (call.reply observer).1.answer = .error e) (key : AccessPath × Slot) :
    Agree key (call.reply observer).2 observer where
  remembered := congrArg (NodeMemo.remembered · key.2) (memo_reply_of_error h key.1)
  host := ⟨_, host_reply call observer⟩

/-- A call for the slot has one reply in both. -/
theorem reply_eq (h : Agree call.key observer other) :
    (call.reply observer).1 = (call.reply other).1 := by
  rw [SlotCall.reply_eq, SlotCall.reply_eq, h.remembered, h.answer_eq call]

/-- Both agree after a call for the slot. -/
theorem reply (h : Agree call.key observer other) :
    Agree call.key (call.reply observer).2 (call.reply other).2 where
  remembered := by
    rw [remembered_reply, remembered_reply, if_pos rfl, if_pos rfl, h.remembered, h.answer_eq call]
  host := by
    obtain ⟨log, hlog⟩ := h.host
    exact ⟨(call.reply observer).2.host.log, by rw [host_reply, host_reply, hlog]⟩

end Agree

/-! ## Sequences of calls -/

variable {calls : List SlotCall} {key : AccessPath × Slot}

theorem map_fst_transcript (observer : Observer) (calls : List SlotCall) :
    (transcript observer calls).map (·.1) = calls := by
  induction calls generalizing observer with
  | nil => rfl
  | cons call rest ih => exact congrArg (call :: ·) (ih (call.reply observer).2)

/-- **The host after some calls** has written down what the replies say. -/
theorem host_afterCalls (observer : Observer) (calls : List SlotCall) :
    (afterCalls observer calls).host = { observer.host with
      log := observer.host.log ++ (transcript observer calls).flatMap (·.2.events) } := by
  induction calls generalizing observer with
  | nil => simp [afterCalls, transcript]
  | cons call rest ih =>
    have hrest := ih (call.reply observer).2
    have hlog (first later : List Event) :
        observer.host.log ++ (first ++ later) = observer.host.log ++ first ++ later := by
      simp [← Array.toList_inj]
    rw [host_reply] at hrest
    rw [transcript, List.flatMap_cons, hlog]
    exact hrest

/-- **What is remembered is the reply** to every call for the slot, and the host is not asked. -/
theorem reply_of_known (h : observer.scratch.remembered key = some answer) :
    ∀ entry ∈ transcript observer calls, entry.1.key = key → entry.2 = ⟨.ok answer, []⟩ := by
  induction calls generalizing observer with
  | nil => exact fun _ hentry => nomatch hentry
  | cons call rest ih =>
    refine List.forall_mem_cons.mpr ⟨fun hkey => ?_, ih ?_⟩
    · simp only [reply_eq, hkey, h]
    · rw [remembered_reply]
      split
      · rename_i hkey
        rw [← hkey, h, Option.some_or]
      · exact h

/-- After an answer every later call for the slot has the same one. -/
theorem pairwise_transcript (observer : Observer) (calls : List SlotCall) :
    (transcript observer calls).Pairwise fun earlier later => later.1.key = earlier.1.key →
      ∀ answer, earlier.2.answer = .ok answer → later.2 = ⟨.ok answer, []⟩ := by
  induction calls generalizing observer with
  | nil => exact .nil
  | cons call rest ih =>
    refine List.pairwise_cons.mpr ⟨fun later hlater hkey answer hanswer => ?_, ih _⟩
    have hkept : (call.reply observer).2.scratch.remembered call.key = some answer := by
      rw [remembered_reply, if_pos rfl]
      rw [reply_eq] at hanswer
      cases hremembered : observer.scratch.remembered call.key with
      | some known =>
        rw [hremembered] at hanswer
        cases hanswer
        rfl
      | none =>
        rw [hremembered] at hanswer
        simp only at hanswer
        rw [hanswer]
        rfl
    exact reply_of_known hkept later hlater hkey

/-- **A call is put to the host as long as its slot has no answer.** -/
theorem reply_of_unanswered {before after : List (SlotCall × Reply)} {entry : SlotCall × Reply}
    (h : transcript observer calls = before ++ entry :: after)
    (hempty : observer.scratch.remembered entry.1.key = none)
    (hfailed : ∀ earlier ∈ before, earlier.1.key = entry.1.key → ∃ e, earlier.2.answer = .error e) :
    entry.2 = ⟨entry.1.question.answer observer.host, [entry.1.question.event]⟩ := by
  induction before generalizing observer calls with
  | nil =>
    cases calls with
    | nil => cases h
    | cons call rest =>
      obtain ⟨rfl, -⟩ := List.cons.inj h
      simp only [reply_eq, hempty]
  | cons first before ih =>
    cases calls with
    | nil => cases h
    | cons call rest =>
      obtain ⟨rfl, hrest⟩ := List.cons.inj h
      obtain ⟨hfirst, hfailed⟩ := List.forall_mem_cons.mp hfailed
      have hagree : Agree entry.1.key (call.reply observer).2 observer := by
        by_cases hkey : call.key = entry.1.key
        · obtain ⟨e, he⟩ := hfirst hkey
          exact .of_error he _
        · exact .of_other hkey observer
      rw [← hagree.answer_eq]
      exact ih hrest (hagree.remembered.trans hempty) hfailed

/-- **The calls for one slot do not notice the others**: their replies are those of a run without these. -/
theorem transcript_filter_of_agree {other : Observer} (h : Agree key observer other) :
    (transcript observer calls).filter (·.1.key = key) =
      transcript other (calls.filter (·.key = key)) := by
  induction calls generalizing observer other with
  | nil => rfl
  | cons call rest ih =>
    by_cases hkey : call.key = key
    · subst hkey
      simp only [transcript, List.filter_cons, decide_true, if_true, h.reply_eq, ih h.reply]
    · simp only [transcript, List.filter_cons, hkey, decide_false, Bool.false_eq_true, if_false]
      exact ih ((Agree.of_other hkey observer).trans h)

/-! ## The laws of a slot -/

/-- A host and a memory that knows nothing yet. -/
def fresh (host : Host) : Observer := ⟨host, .empty⟩

/-- **Slots are written once**, in a run of calls that begins without any memory. -/
structure WrittenOnce (host : Host) (calls : List SlotCall) : Prop where
  /-- Each call has a reply. -/
  replies : (transcript (fresh host) calls).map (·.1) = calls
  /-- The events of the replies are all that changes about the host. -/
  logged : (afterCalls (fresh host) calls).host = { host with
    log := host.log ++ (transcript (fresh host) calls).flatMap (·.2.events) }
  /-- The first answer for a slot is the answer of every later call for it, and the host is not asked. -/
  fixed : (transcript (fresh host) calls).Pairwise fun earlier later => later.1.key = earlier.1.key →
    ∀ answer, earlier.2.answer = .ok answer → later.2 = ⟨.ok answer, []⟩
  /-- As long as all calls for a slot have failed the next one is put to the host. -/
  asked : ∀ {before entry after}, transcript (fresh host) calls = before ++ entry :: after →
    (∀ earlier ∈ before, earlier.1.key = entry.1.key → ∃ e, earlier.2.answer = .error e) →
    entry.2 = ⟨entry.1.question.answer host, [entry.1.question.event]⟩
  /-- A call that fails changes nothing that is remembered. -/
  failed : ∀ {before call after e}, calls = before ++ call :: after →
    (call.reply (afterCalls (fresh host) before)).1.answer = .error e →
    ∀ path, (afterCalls (fresh host) (before ++ [call])).scratch.memo path =
      (afterCalls (fresh host) before).scratch.memo path
  /-- The replies to the calls for one slot are those of a run without the other calls. -/
  apart : ∀ key, (transcript (fresh host) calls).filter (·.1.key = key) =
    transcript (fresh host) (calls.filter (·.key = key))

/-- **Every run of calls writes each slot once**, whatever paths and values it goes through and wherever the
    host fails. -/
theorem writtenOnce (host : Host) (calls : List SlotCall) : WrittenOnce host calls where
  replies := map_fst_transcript (fresh host) calls
  logged := host_afterCalls (fresh host) calls
  fixed := pairwise_transcript (fresh host) calls
  asked h := reply_of_unanswered h (Scratch.remembered_empty _)
  failed {before call _ _} _ herror path := by
    rw [afterCalls, List.foldl_append]
    exact memo_reply_of_error herror path
  apart key := transcript_filter_of_agree (.refl key (fresh host))

/-- A look at the elements of an integer fails and is repeated with a list, whose elements are the answer
    for the integer from then on. -/
example :
    let look (value : Value) : SlotCall := ⟨.root, .elements, value⟩
    (transcript (fresh .initial) [look (.int 1), look (.list 0 [.int 2]), look (.int 1)]).map (·.2) =
      [⟨.error (.noSequenceView "int"), [.sequenceView .int]⟩,
        ⟨.ok (.elements [.int 2]), [.sequenceView .list]⟩, ⟨.ok (.elements [.int 2]), []⟩] := by
  rfl

end SlotCall

end StructuralMatch

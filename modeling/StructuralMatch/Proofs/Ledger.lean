import StructuralMatch.Proofs.Evaluation
import StructuralMatch.Proofs.Retention

/-!
# `Proofs.Ledger` — no part is asked for twice

The host answers at most once what the elements, the mapping view, the components, the declared
attributes or one attribute of a part are, however many clauses, alternatives, lanes or nested patterns
look at the part. The memory keeps a ledger of the questions it put to the host, each with the path it
was put for. Two invariants carry the proof:

* `Recorded`: the ledger has no two entries of one path and one slot, and it is the part of the log that
  is about slots, in the order of the log;
* `Kept`: moreover every entry of the ledger has its answer in the memory.

A question that fails leaves an entry without an answer, so that `Kept` does not survive an error. It
need not: no error is caught, and an evaluation that meets one asks nothing any more.

The main result is `Engine.slots_asked_once`.
-/

namespace StructuralMatch

/-- What an entry of the ledger is about: a part, and the slot of it. -/
def ledgerKey (entry : AccessPath × Event) : AccessPath × Option Slot := (entry.1, entry.2.slot?)

/-- **The ledger is honest**: it has no two entries about one slot of one part, and it is what the log
    says about slots since `start`. -/
structure Recorded (start : List Event) (s : Matcher) : Prop where
  distinct : (s.scratch.asked.map ledgerKey).Nodup
  logged : ∃ events, s.host.log.toList = start ++ events ∧
    events.filter (·.slot?.isSome) = s.scratch.asked.reverse.map (·.2)

/-- **Answers are kept**: the ledger is honest, and what was asked is known. -/
structure Kept (start : List Event) (s : Matcher) : Prop extends Recorded start s where
  known : ∀ entry ∈ s.scratch.asked, ∀ slot, entry.2.slot? = some slot →
    (s.scratch.memo entry.1).knows slot = true

namespace Recorded

variable {start : List Event} {s t : Matcher}

/-- The ledger is honest as long as it and the log stay the same. -/
theorem of_eq (h : Recorded start s) (hlog : t.host.log = s.host.log)
    (hasked : t.scratch.asked = s.scratch.asked) : Recorded start t where
  distinct := hasked ▸ h.distinct
  logged := by rw [hlog, hasked]; exact h.logged

/-- A question whose answer is not kept adds nothing to the ledger. -/
theorem record (h : Recorded start s) {event : Event} (hevent : event.slot? = none) :
    Recorded start { s with host := s.host.record event } where
  distinct := h.distinct
  logged := by
    obtain ⟨events, hlog, hfilter⟩ := h.logged
    refine ⟨events ++ [event], by simp [Host.record, hlog], ?_⟩
    simp only [List.filter_append, hfilter, List.filter_cons, hevent, Option.isSome_none]
    exact List.append_nil _

/-- **A new entry.** A question about a slot that has no answer yet was not asked before. -/
theorem note (h : Recorded start s) {path : AccessPath} {event : Event} {slot : Slot}
    {scratch : Scratch} (hevent : event.slot? = some slot)
    (hnew : (path, some slot) ∉ s.scratch.asked.map ledgerKey)
    (hasked : scratch.asked = (path, event) :: s.scratch.asked) :
    Recorded start { s with host := s.host.record event, scratch } where
  distinct := by
    have hkey : ledgerKey (path, event) = (path, some slot) := by rw [ledgerKey, hevent]
    simp only [hasked, List.map_cons, hkey]
    exact List.nodup_cons.mpr ⟨hnew, h.distinct⟩
  logged := by
    obtain ⟨events, hlog, hfilter⟩ := h.logged
    refine ⟨events ++ [event], by simp [Host.record, hlog], ?_⟩
    simp only [List.filter_append, hfilter, hasked, List.filter_cons, hevent, Option.isSome_some,
      if_true, List.filter_nil, List.reverse_cons, List.map_append, List.map_cons, List.map_nil]

end Recorded

namespace Kept

variable {start : List Event} {s t : Matcher}

/-- Answers are kept as long as the log and the memory stay the same. -/
theorem of_eq (h : Kept start s) (hlog : t.host.log = s.host.log)
    (hscratch : t.scratch = s.scratch) : Kept start t where
  toRecorded := h.toRecorded.of_eq hlog (by rw [hscratch])
  known := hscratch ▸ h.known

/-- What is not known was not asked for. -/
theorem notMem_of_unknown (h : Kept start s) {path : AccessPath} {slot : Slot}
    (hunknown : (s.scratch.memo path).knows slot = false) :
    (path, some slot) ∉ s.scratch.asked.map ledgerKey := by
  intro hmem
  obtain ⟨entry, hentry, hkey⟩ := List.mem_map.mp hmem
  obtain ⟨rfl, hslot⟩ := Prod.mk.inj hkey
  have := h.known entry hentry slot hslot
  rw [hunknown] at this
  cases this

/-- **A look at a part keeps the invariant.** If the slot is filled, nothing is asked. If it is empty,
    the question is new, and its answer fills the slot; only an error leaves it empty. -/
theorem look {α : Type} {slot : Slot} {read : NodeMemo → Option α} {keep : α → NodeMemo → NodeMemo}
    {question : Question α} (hfills : Fills slot read keep question) (path : AccessPath)
    (s : Matcher) :
    Matcher.Leads (Kept start) (fun _ _ => True) (fun _ _ => Recorded start)
      (Matcher.observe (askOnce path read keep question)) s fun _ _ => True := by
  have hnew (hs : Kept start s) (hread : read (s.scratch.memo path) = none) :
      (path, some slot) ∉ s.scratch.asked.map ledgerKey := by
    refine hs.notMem_of_unknown ?_
    rw [← hfills.reads, hread, Option.isSome_none]
  refine Matcher.leads_askOnce ?_ ?_ ?_
  · intro a hs _
    refine ⟨⟨hs.toRecorded.of_eq rfl (Scratch.asked_visit _ _), ?_⟩, trivial, trivial⟩
    intro entry hentry other hother
    simp only [Scratch.asked_visit] at hentry
    simpa only [Scratch.memo_visit] using hs.known entry hentry other hother
  -- The new entry has its answer; an older one keeps its answer, also where it is about the same part.
  · intro a hs hread _
    refine ⟨⟨hs.toRecorded.note hfills.event (hnew hs hread) (Scratch.asked_learnt ..), ?_⟩,
      trivial, trivial⟩
    intro entry hentry other hother
    simp only [Scratch.asked_learnt, List.mem_cons] at hentry
    simp only [Scratch.memo_learnt]
    rcases hentry with rfl | hentry
    · rw [if_pos rfl]
      obtain rfl : slot = other := Option.some.inj (hfills.event.symm.trans hother)
      rw [← hfills.reads, hfills.keeps, Option.isSome_some]
    · have hknown := hs.known entry hentry other hother
      split
      · rename_i hpath
        exact (hfills.within a _ hread).knows (hpath ▸ hknown)
      · exact hknown
  -- Nothing is kept for the new entry, so that only the weaker invariant is left.
  · intro e hs hread _
    exact hs.toRecorded.note hfills.event (hnew hs hread) (Scratch.asked_noted ..)

/-- **Every step of an evaluation keeps the invariant**; one that fails leaves an honest ledger. -/
theorem evolution (start : List Event) :
    Matcher.RunEvolution (Kept start) (fun _ _ => True) fun _ _ => Recorded start :=
  Matcher.ObserverEvolution.toRunEvolution {
    refl := fun _ => trivial
    trans := fun _ _ => trivial
    fails := fun _ h => h
    unchanged := fun hs hobserver _ =>
      ⟨hs.of_eq (congrArg (·.host.log) hobserver) (congrArg (·.scratch) hobserver), trivial⟩
    failsUnchanged := fun h hobserver _ =>
      h.of_eq (congrArg (·.host.log) hobserver) (congrArg (·.scratch.asked) hobserver)
    thrown := fun hs _ => hs.toRecorded
    resolve := fun _ _ hs => ⟨hs.of_eq rfl rfl, trivial⟩
    allocate := fun hs => ⟨hs.of_eq rfl rfl, trivial⟩
    ask := fun _ _ hevent =>
      Matcher.leads_askHost
        (fun _ hs _ => ⟨⟨hs.toRecorded.record hevent, hs.known⟩, trivial, trivial⟩)
        fun _ hs _ => hs.toRecorded.record hevent
    elements := fun path _ _ => look (fills_elements _) path _
    mapping := fun path _ _ => look (fills_mapping _) path _
    components := fun path _ _ => look (fills_components _) path _
    declared := fun path _ _ => look (fills_declared _) path _
    fetch := fun path name _ _ => look (fills_field _ name) path _ }

/-- A matcher that has seen nothing has an empty ledger. -/
theorem matcher (engine : Engine) (host : Host) : Kept host.log.toList (engine.matcher host) where
  distinct := List.nodup_nil
  logged := ⟨[], (List.append_nil _).symm, rfl⟩
  known entry hentry := by cases hentry

end Kept

end StructuralMatch

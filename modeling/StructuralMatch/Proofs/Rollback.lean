import StructuralMatch.Proofs.Evaluation
import StructuralMatch.Proofs.Transparency

/-!
# `Proofs.Rollback` — bindings are only added, and failed alternatives are undone

A pattern that fails may leave bindings behind. Only an or-pattern drops them: it marks the end of the
bindings before each alternative and cuts back to the mark if the alternative fails. This undoes what the
alternative has bound and nothing else, because no pattern, however it ends, cuts below the bindings that
it was entered with.

* `Grown` relates a matcher to one with the same bindings and perhaps more behind them. All steps stay
  inside this relation (`Grown.evolution`), also those that fail.
* `AllFail` follows alternatives that fail one after the other, and `matchFirst_cases` says how trying
  alternatives can end.
* The main result is `bindings_disciplined`.
-/

namespace StructuralMatch

namespace Matcher

variable {subject value : Value} {path : AccessPath} {base s t u : Matcher}

/-! ## Bindings are only added -/

/-- The bindings are the earlier ones, perhaps with more behind them. -/
def Grown (s t : Matcher) : Prop := s.bindings.slots <+: t.bindings.slots

namespace Grown

theorem of_eq (h : t.bindings = s.bindings) : Grown s t := by
  have hslots : s.bindings.slots ++ [] = t.bindings.slots := by rw [h, List.append_nil]
  exact ⟨[], hslots⟩

/-- What was bound since a mark is undone by cutting back to it. -/
theorem truncate (h : Grown s t) : t.bindings.truncate s.bindings.mark = s.bindings := by
  obtain ⟨added, hadded⟩ := h
  have hback := s.bindings.truncate_mark added
  rwa [hadded] at hback

theorem place : PlacePassage Grown fun _ => Grown where
  refl _ := List.prefix_rfl
  trans hst htu := List.IsPrefix.trans hst htu
  fails hst htu := List.IsPrefix.trans hst htu
  stays hbindings _ _ := of_eq hbindings
  failsThere hbindings _ _ := of_eq hbindings

/-- **A trial cuts back to where it started**, and not further. -/
theorem attempt {trial : MatchM Bool}
    (h : Leads (fun _ => True) Grown (fun _ => Grown) trial s fun _ _ => True) :
    Leads (fun _ => True) Grown (fun _ => Grown) (Matcher.attempt trial) s fun _ _ => True := by
  intro _
  unfold Matcher.attempt
  refine Leads.get_bind ?_ trivial
  intro _
  cases hrun : trial s with
  | error e t =>
    rw [bind_of_error hrun]
    exact h.of_error trivial hrun
  | ok matched t =>
    have hgrown : Grown s t := h.rel_of_ok hrun
    rw [bind_of_ok hrun]
    cases matched with
    | true => exact ⟨trivial, hgrown, trivial⟩
    | false => exact ⟨trivial, of_eq hgrown.truncate, trivial⟩

theorem descend {inner : MatchM Bool} (hlimit : s.limitReached? = none)
    (h : Leads (fun _ => True) Grown (fun _ => Grown) inner { s with depth := s.depth + 1 }
      fun _ _ => True) :
    Leads (fun _ => True) Grown (fun _ => Grown) (Matcher.descend inner) s fun _ _ => True := by
  intro _
  cases hrun : inner { s with depth := s.depth + 1 } with
  | ok matched t =>
    have hgrown : Grown s t := h.rel_of_ok hrun
    rw [descend_of_ok hlimit hrun]
    exact ⟨trivial, hgrown, trivial⟩
  | error e t =>
    have hgrown : Grown s t := h.of_error trivial hrun
    rw [descend_of_error hlimit hrun]
    exact hgrown

/-- **Every step of a pattern only adds bindings**, and so does one that fails. -/
theorem evolution : Evolution (fun _ => True) Grown fun _ => Grown where
  toPartEvolution := place.partEvolution
  bind _ _ _ _ := ⟨trivial, List.prefix_append .., trivial⟩
  attempt := attempt
  descend := descend

end Grown

/-- An alternative that fails leaves nothing behind. -/
theorem attempt_of_false {pattern : Pattern} (h : matchPattern pattern value path s = .ok false t) :
    attempt (matchPattern pattern value path) s = .ok false { t with bindings := s.bindings } := by
  have hgrown : Grown s t := (Grown.evolution.matchPattern pattern value path s).rel_of_ok h
  unfold attempt
  show (matchPattern pattern value path >>= _) s = _
  rw [bind_of_ok h]
  show EStateM.Result.ok false { t with bindings := t.bindings.truncate s.bindings.mark } = _
  rw [hgrown.truncate]

theorem attempt_of_true {pattern : Pattern} (h : matchPattern pattern value path s = .ok true t) :
    attempt (matchPattern pattern value path) s = .ok true t := by
  unfold attempt
  show (matchPattern pattern value path >>= _) s = _
  rw [bind_of_ok h]
  rfl

theorem attempt_of_error {pattern : Pattern} {e : MatchError}
    (h : matchPattern pattern value path s = .error e t) :
    attempt (matchPattern pattern value path) s = .error e t := by
  unfold attempt
  show (matchPattern pattern value path >>= _) s = _
  rw [bind_of_error h]

/-! ## Alternatives -/

/-- **Alternatives that fail, one after the other.** Each is tried with the bindings that the first one
    was tried with. -/
inductive AllFail (value : Value) (path : AccessPath) : List Pattern → Matcher → Matcher → Prop
  | nil (s : Matcher) : AllFail value path [] s s
  | cons {pattern : Pattern} {rest : List Pattern} {s t u : Matcher} :
      matchPattern pattern value path s = .ok false t →
      AllFail value path rest { t with bindings := s.bindings } u →
      AllFail value path (pattern :: rest) s u

namespace AllFail

variable {patterns : List Pattern}

/-- **Nothing is left of alternatives that have failed**, and the next one stands at the same level. -/
theorem samePlace (h : AllFail value path patterns s u) : SamePlace s u := by
  induction h with
  | nil s => exact ⟨rfl, rfl, rfl⟩
  | @cons pattern _ s t u hfails _ ih =>
    have hlevel : Level s t := (Level.evolution.matchPattern pattern value path s).rel_of_ok hfails
    exact ⟨ih.bindings, ih.depth.trans hlevel.depth, ih.maxDepth.trans hlevel.maxDepth⟩

end AllFail

/-- **How trying alternatives ends**: either all fail, or those before some alternative fail and this one
    settles the result, be it a match or an error. -/
theorem matchFirst_cases (alternatives : List Pattern) (value : Value) (path : AccessPath) (s : Matcher) :
    (∃ u, AllFail value path alternatives s u ∧ matchFirst alternatives value path s = .ok false u) ∨
      ∃ before chosen after u, alternatives = before ++ chosen :: after ∧
        AllFail value path before s u ∧
          matchFirst alternatives value path s = matchPattern chosen value path u ∧
            ∀ v, matchPattern chosen value path u ≠ .ok false v := by
  induction alternatives generalizing s with
  | nil => exact .inl ⟨s, .nil s, by rw [matchFirst]; rfl⟩
  | cons pattern rest ih =>
    rw [matchFirst]
    cases hrun : matchPattern pattern value path s with
    | error e t =>
      refine .inr ⟨[], pattern, rest, s, rfl, .nil s, ?_, ?_⟩
      · rw [bind_of_error (attempt_of_error hrun), hrun]
      · simp [hrun]
    | ok matched t =>
      cases matched with
      | true =>
        refine .inr ⟨[], pattern, rest, s, rfl, .nil s, ?_, ?_⟩
        · rw [bind_of_ok (attempt_of_true hrun), hrun]
          rfl
        · simp [hrun]
      | false =>
        rw [bind_of_ok (attempt_of_false hrun)]
        simp only [Bool.false_eq_true, if_false]
        rcases ih { t with bindings := s.bindings } with
          ⟨u, hfail, hrest⟩ | ⟨before, chosen, after, u, rfl, hfail, hrest, hne⟩
        · exact .inl ⟨u, .cons hrun hfail, hrest⟩
        · exact .inr ⟨pattern :: before, chosen, after, u, rfl, .cons hrun hfail, hrest, hne⟩

/-- **Alternatives that all fail leave nothing behind.** -/
theorem samePlace_of_matchFirst {alternatives : List Pattern}
    (h : matchFirst alternatives value path s = .ok false t) : SamePlace s t := by
  rcases matchFirst_cases alternatives value path s with
    ⟨u, hfail, hresult⟩ | ⟨_, chosen, _, u, _, _, hresult, hne⟩
  · rw [hresult] at h
    cases h
    exact hfail.samePlace
  · exact absurd (hresult.symm.trans h) (hne t)

/-! ## Alternatives alone -/

/-- **A pattern does the same in two matchers with true memories that stand at the same place**, and what
    it binds are twins. -/
theorem Truthful.matchPattern_alike {pattern : Pattern} {matched : Bool} {v : Matcher}
    (hs : Truthful subject base s) (hu : Truthful subject base u) (hplace : SamePlace s u)
    (hpath : base.host.Denotes subject path value)
    (hrun : matchPattern pattern value path u = .ok matched v) :
    ∃ w, matchPattern pattern value path s = .ok matched w ∧ Beside subject base w v := by
  have hagree := (Beside.correspondence subject base).matchPattern pattern value value path
    ⟨hpath, .same value⟩ s u (.of_samePlace hs hu hplace)
  rw [hrun] at hagree
  cases halone : matchPattern pattern value path s with
  | error e w =>
    rw [halone] at hagree
    exact hagree.elim
  | ok answer w =>
    rw [halone] at hagree
    obtain ⟨hbeside, rfl⟩ := hagree
    exact ⟨w, rfl, hbeside⟩

/-- **Alternatives that fail one after the other also fail alone**, and they keep the memory true. -/
theorem AllFail.alone {patterns : List Pattern} (h : AllFail value path patterns s u)
    (hs : Truthful subject base s) (hpath : base.host.Denotes subject path value) :
    Truthful subject base u ∧
      ∀ pattern ∈ patterns, ∃ w, matchPattern pattern value path s = .ok false w := by
  -- The first matcher is kept fixed, since the memory changes from one alternative to the next.
  suffices hgeneral : ∀ {r : Matcher}, Truthful subject base r → SamePlace s r →
      Truthful subject base u ∧
        ∀ pattern ∈ patterns, ∃ w, matchPattern pattern value path r = .ok false w from
    hgeneral hs ⟨rfl, rfl, rfl⟩
  induction h with
  | nil s => exact fun _ _ => ⟨hs, fun _ h => by cases h⟩
  | @cons pattern rest s t u hfails hrest ih =>
    intro r hr hplace
    have hback : SamePlace r s :=
      ⟨hplace.bindings.symm, hplace.depth.symm, hplace.maxDepth.symm⟩
    obtain ⟨w, halone, hbeside⟩ := hr.matchPattern_alike hs hback hpath hfails
    have hlevel : Level s t := (Level.evolution.matchPattern pattern value path s).rel_of_ok hfails
    obtain ⟨hu, hothers⟩ := ih (hbeside.right.moved s.bindings t.depth) hr
      ⟨hplace.bindings, hplace.depth.trans hlevel.depth.symm,
        hplace.maxDepth.trans hlevel.maxDepth.symm⟩
    exact ⟨hu, List.forall_mem_cons.mpr ⟨⟨w, halone⟩, hothers⟩⟩

/-! ## The discipline of bindings -/

/-- **The discipline of bindings.** However a pattern ends, the bindings that it was entered with are
    still there, at the front, and the depth is the one that it was entered at. An or-pattern that fails
    leaves the bindings as they were. One that matches ends with the bindings that its first matching
    alternative makes in its place: the alternatives before it fail there one after the other, and it is
    tried with the bindings that the or-pattern was entered with. With a true memory the earlier trials
    make no difference at all: each of these alternatives also fails alone, and the one that matches binds
    the same alone. -/
theorem bindings_disciplined (value : Value) (path : AccessPath) (s : Matcher) :
    (∀ pattern : Pattern,
      let t := endState (matchPattern pattern value path) s
      s.bindings.slots <+: t.bindings.slots ∧ t.depth = s.depth) ∧
    ∀ (alternatives : List Pattern) (t : Matcher),
      (matchPattern (.anyOf alternatives) value path s = .ok false t → t.bindings = s.bindings) ∧
      (matchPattern (.anyOf alternatives) value path s = .ok true t →
        ∃ before chosen after u v, alternatives = before ++ chosen :: after ∧
          AllFail value path before { s with depth := s.depth + 1 } u ∧ u.bindings = s.bindings ∧
          matchPattern chosen value path u = .ok true v ∧ t.bindings = v.bindings ∧
          ∀ (subject : Value) (base : Matcher), Truthful subject base s →
            base.host.Denotes subject path value →
              (∀ pattern ∈ before, ∃ w,
                matchPattern pattern value path { s with depth := s.depth + 1 } = .ok false w) ∧
              ∃ w, matchPattern chosen value path { s with depth := s.depth + 1 } = .ok true w ∧
                w.bindings.Related (Value.Twin base.host.nextIdentity) t.bindings) := by
  refine ⟨fun pattern => ⟨?_, ?_⟩, fun alternatives t => ⟨?_, ?_⟩⟩
  · have hgrows := Grown.evolution.matchPattern pattern value path s
    exact hgrows.endState trivial (fun _ _ h => h) fun _ _ h => h
  · have hlevel := Level.evolution.matchPattern pattern value path s
    exact hlevel.endState trivial (fun _ _ h => h.depth) fun _ _ h => h.depth
  · intro hrun
    rw [matchPattern] at hrun
    obtain ⟨u, hfirst, rfl⟩ := exists_of_descend_ok hrun
    exact (samePlace_of_matchFirst hfirst).bindings
  · intro hrun
    rw [matchPattern] at hrun
    obtain ⟨v, hfirst, rfl⟩ := exists_of_descend_ok hrun
    rcases matchFirst_cases alternatives value path { s with depth := s.depth + 1 } with
      ⟨w, _, hresult⟩ | ⟨before, chosen, after, u, hsplit, hfail, hresult, _⟩
    · rw [hresult] at hfirst
      cases hfirst
    · have hmatch : matchPattern chosen value path u = .ok true v := hresult.symm.trans hfirst
      refine ⟨before, chosen, after, u, v, hsplit, hfail, hfail.samePlace.bindings, hmatch, rfl, ?_⟩
      intro subject base hs hpath
      have hdeeper : Truthful subject base { s with depth := s.depth + 1 } :=
        hs.moved s.bindings (s.depth + 1)
      obtain ⟨hu, hothers⟩ := hfail.alone hdeeper hpath
      obtain ⟨w, halone, hbeside⟩ := hdeeper.matchPattern_alike hu hfail.samePlace hpath hmatch
      exact ⟨hothers, w, halone, hbeside.bindings⟩

/-- `[x, 1] | [y, 2]` binds nothing but `y` on `[3, 2]`. -/
theorem bindings_disciplined_second :
    let first : Pattern := .sequence [.capture ⟨1⟩, .literal (.int 1)] none
    let second : Pattern := .sequence [.capture ⟨2⟩, .literal (.int 2)] none
    let value : Value := .list 1 [.int 3, .int 2]
    let s : Matcher := .ofHost .initial .empty none
    ∃ t, matchPattern (.anyOf [first, second]) value .root s = .ok true t ∧
      t.bindings.slots.map (·.1) = [⟨2⟩] ∧
      ∃ before chosen after u v, [first, second] = before ++ chosen :: after ∧
        AllFail value .root before { s with depth := s.depth + 1 } u ∧ u.bindings = s.bindings ∧
        matchPattern chosen value .root u = .ok true v ∧ t.bindings = v.bindings ∧
        (∀ pattern ∈ before, ∃ w,
          matchPattern pattern value .root { s with depth := s.depth + 1 } = .ok false w) ∧
        ∃ w, matchPattern chosen value .root { s with depth := s.depth + 1 } = .ok true w ∧
          w.bindings.Related (Value.Twin s.host.nextIdentity) t.bindings := by
  intro first second value s
  obtain ⟨t, hrun, hnames⟩ := exists_of_run'_get (fun t => t.bindings.slots.map (·.1)) (s := s)
    (x := matchPattern (.anyOf [first, second]) value .root) (a := true) (b := [⟨2⟩])
    (by decide +kernel)
  obtain ⟨before, chosen, after, u, v, hsplit, hfail, hback, hmatch, hbindings, halone⟩ :=
    ((bindings_disciplined value .root s).2 [first, second] t).2 hrun
  obtain ⟨hothers, hchosen⟩ :=
    halone value s (Truthful.of_fresh value .initial .empty none) (Host.Denotes.root value)
  exact ⟨t, hrun, hnames, before, chosen, after, u, v, hsplit, hfail, hback, hmatch, hbindings, hothers,
    hchosen⟩

end Matcher

end StructuralMatch

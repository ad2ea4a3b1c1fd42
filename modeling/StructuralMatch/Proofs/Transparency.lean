import StructuralMatch.Proofs.Correspondence
import StructuralMatch.Proofs.Parts

/-!
# `Proofs.Transparency` — what is in memory does not matter

Two matchers that started from one state `base` may have looked at different parts since. As long as both
memories are true (`Truthful`), they answer alike, and the matchers do the same with any pattern. `Beside`
is the relation between two such matchers and `Beside.correspondence` the result. What they bind are
twins: values that are the same, but for lists and dicts that were made on both sides.
-/

namespace StructuralMatch

namespace Matcher

variable {subject : Value} {base s t : Matcher}

/-! ## True memories -/

/-- **The memory is true**: the matcher is in the frame of `base`, and what it remembers about a part is
    what the host of `base` would answer. -/
structure Truthful (subject : Value) (base s : Matcher) : Prop extends Frame base s where
  memo : ∀ path value, base.host.Denotes subject path value →
    (s.scratch.memo path).TrueOf base.host value

/-- Bindings and depth are the same. -/
structure SamePlace (s t : Matcher) : Prop where
  bindings : t.bindings = s.bindings
  depth : t.depth = s.depth
  maxDepth : t.maxDepth = s.maxDepth

/-- The error is the one that the host answers with. -/
def Raises {α : Type} (answer : Except HostError α) (e : MatchError) (_ _ : Matcher) : Prop :=
  ∃ error, e = .host error ∧ answer = .error error

/-- **The computation gives a fixed answer** from every state with a true memory, and keeps it true. -/
def Answers {α : Type} (subject : Value) (base : Matcher) (answer : Except HostError α)
    (x : MatchM α) (s : Matcher) : Prop :=
  Leads (Truthful subject base) SamePlace (Raises answer) x s fun a _ => answer = .ok a

/-- A fixed answer is given, where it is no error. -/
theorem Answers.exists_ok {α : Type} {a : α} {x : MatchM α} (h : Answers subject base (.ok a) x s)
    (hs : Truthful subject base s) : ∃ t, x s = .ok a t ∧ Truthful subject base t := by
  cases hx : x s with
  | ok b t =>
    obtain ⟨ht, -, hanswer⟩ := h.of_ok hs hx
    cases hanswer
    exact ⟨t, rfl, ht⟩
  | error e t =>
    obtain ⟨error, -, hanswer⟩ := h.of_error hs hx
    cases hanswer

namespace Truthful

theorem of_frame (h : Truthful subject base s) (hframe : Frame s t) (hscratch : t.scratch = s.scratch) :
    Truthful subject base t :=
  ⟨h.toFrame.trans hframe, hscratch ▸ h.memo⟩

/-- The bindings and the depth have no part in it. -/
theorem moved (h : Truthful subject base s) (bindings : Bindings Value) (depth : Nat) :
    Truthful subject base { s with bindings, depth } :=
  h.of_frame ((Frame.refl s).of_eq rfl rfl) rfl

/-- A matcher that has seen nothing remembers nothing wrong. -/
theorem of_fresh (subject : Value) (host : Host) (kinds : KindCache) (maxDepth : Option Nat) :
    Truthful subject (ofHost host kinds maxDepth) (ofHost host kinds maxDepth) :=
  ⟨.refl _, fun _ value _ => .empty host value⟩

/-- The kind of a value is the one in `base`. -/
theorem kindOf (value : Value) (s : Matcher) :
    Answers subject base (.ok (base.kindAt value.type)) (Matcher.kindOf value) s := by
  intro hs
  rw [kindOf_eq]
  exact ⟨hs.of_frame (Frame.resolve value.type s) rfl, ⟨rfl, rfl, rfl⟩,
    congrArg Except.ok (hs.kinds value.type).symm⟩

/-- A question that depends on the world only is answered as in `base`. -/
theorem ask {α : Type} {question : Question α}
    (hsteady : ∀ {other : Host}, base.host.SameWorld other →
      question.answer other = question.answer base.host) (s : Matcher) :
    Answers subject base (question.answer base.host) (askHost question) s := by
  have hanswer (hs : Truthful subject base s) :
      question.answer (s.host.record question.event) = question.answer base.host :=
    hsteady (hs.world.trans (.record s.host question.event))
  refine leads_askHost (fun a hs h => ?_) fun e hs h => ?_
  · exact ⟨hs.of_frame (Frame.record s question.event) rfl, ⟨rfl, rfl, rfl⟩, hanswer hs ▸ h⟩
  · exact ⟨e, rfl, hanswer hs ▸ h⟩

/-- **A look at a part is answered as in `base`**, be it from memory or by the host. -/
theorem look {α : Type} {value : Value} {path : AccessPath} {read : NodeMemo → Option α}
    {keep : α → NodeMemo → NodeMemo} {question : Question α}
    (hfaithful : Faithful base.host value read keep question)
    (hpath : base.host.Denotes subject path value) (s : Matcher) :
    Answers subject base (question.answer base.host) (observe (askOnce path read keep question))
      s := by
  have hanswer (hs : Truthful subject base s) :
      question.answer (s.host.record question.event) = question.answer base.host :=
    hfaithful.steady (hs.world.trans (.record s.host question.event))
  refine leads_askOnce (fun a hs hread => ?_) (fun a hs _ h => ?_) fun e hs _ h => ?_
  · refine ⟨⟨hs.toFrame.trans (Frame.remember s _), fun other v hother => ?_⟩, ⟨rfl, rfl, rfl⟩, ?_⟩
    · rw [Scratch.memo_visit]
      exact hs.memo other v hother
    · exact hfaithful.reads (hs.memo path value hpath) hread
  · rw [hanswer hs] at h
    refine ⟨⟨hs.toFrame.trans (Frame.asked s _ _), fun other v hother => ?_⟩, ⟨rfl, rfl, rfl⟩, h⟩
    rw [Scratch.memo_learnt]
    split
    -- The answer is kept for the path, which may lead to another value with the same face.
    · rename_i heq
      subst heq
      exact (hfaithful.keeps (hs.memo other value hpath) h).congr (hpath.unique hother)
    · exact hs.memo other v hother
  · exact ⟨e, rfl, hanswer hs ▸ h⟩

end Truthful

/-! ## Two matchers side by side -/

/-- **Two matchers are at the same point**: their memories are true, and they have bound twins. -/
structure Beside (subject : Value) (base s t : Matcher) : Prop where
  left : Truthful subject base s
  right : Truthful subject base t
  depth : s.depth = t.depth
  maxDepth : s.maxDepth = t.maxDepth
  bindings : s.bindings.Related (Value.Twin base.host.nextIdentity) t.bindings

/-- Both sides look at what the path leads to. -/
def Seen (subject : Value) (base : Matcher) (path : AccessPath) (v w : Value) : Prop :=
  base.host.Denotes subject path v ∧ v.Twin base.host.nextIdentity w

namespace Seen

variable {path : AccessPath} {v w : Value}

theorem right (h : Seen subject base path v w) : base.host.Denotes subject path w :=
  h.1.congr h.2.faceless

/-- What does not depend on the face is the same on both sides. -/
theorem eq_of_faceless {α : Type} (h : Seen subject base path v w) (read : Value → α)
    (hread : ∀ v : Value, read v.faceless = read v) : read w = read v :=
  Value.eq_of_faceless read hread h.2.faceless

theorem type_eq (h : Seen subject base path v w) : w.type = v.type :=
  h.eq_of_faceless Value.type Value.type_faceless

/-- One step further both sides look at the same value. -/
theorem push (h : Seen subject base path v w) {step : PathStep} {x : Value}
    (hstep : base.host.part v step = some x) : Seen subject base (path.push step) x x :=
  ⟨h.1.push hstep, .same x⟩

end Seen

namespace Beside

/-- Two matchers with true memories and with the same bindings, at the same level. -/
theorem of_samePlace (hs : Truthful subject base s) (ht : Truthful subject base t)
    (hplace : SamePlace s t) : Beside subject base s t where
  left := hs
  right := ht
  depth := hplace.depth.symm
  maxDepth := hplace.maxDepth.symm
  bindings := by
    rw [hplace.bindings]
    exact List.forall₂_same.mpr fun slot _ => ⟨rfl, .same slot.2⟩

/-- Two matchers that bind or descend alike stay side by side. -/
theorem moved (hst : Beside subject base s t) {bindings bindings' : Bindings Value}
    {depth depth' : Nat} (hdepth : depth = depth')
    (hbindings : bindings.Related (Value.Twin base.host.nextIdentity) bindings') :
    Beside subject base { s with bindings, depth }
      { t with bindings := bindings', depth := depth' } where
  left := hst.left.moved bindings depth
  right := hst.right.moved bindings' depth'
  depth := hdepth
  maxDepth := hst.maxDepth
  bindings := hbindings

/-- Computations that give one answer agree. -/
theorem alike {α : Type} {answer answer' : Except HostError α} {x y : MatchM α}
    (hst : Beside subject base s t) (hx : Answers subject base answer x s)
    (hy : Answers subject base answer' y t) (hanswer : answer' = answer) :
    Alike (Beside subject base) (fun _ _ => True) (fun a b => a = b ∧ answer = .ok a) (x s) (y t) := by
  subst hanswer
  cases hrunx : x s with
  | ok a u =>
    obtain ⟨hu, hplace, ha⟩ := hx.of_ok hst.left hrunx
    cases hruny : y t with
    | ok b v =>
      obtain ⟨hv, hplace', hb⟩ := hy.of_ok hst.right hruny
      refine ⟨⟨hu, hv, ?_, ?_, ?_⟩, Except.ok.inj (ha.symm.trans hb), ha⟩
      · rw [hplace.depth, hplace'.depth, hst.depth]
      · rw [hplace.maxDepth, hplace'.maxDepth, hst.maxDepth]
      · rw [hplace.bindings, hplace'.bindings]
        exact hst.bindings
    | error e v =>
      obtain ⟨error, -, herror⟩ := hy.of_error hst.right hruny
      cases ha.symm.trans herror
  | error e u =>
    obtain ⟨error, rfl, herror⟩ := hx.of_error hst.left hrunx
    cases hruny : y t with
    | ok b v =>
      obtain ⟨-, -, hb⟩ := hy.of_ok hst.right hruny
      cases herror.symm.trans hb
    | error e' v =>
      obtain ⟨error', rfl, herror'⟩ := hy.of_error hst.right hruny
      cases herror.symm.trans herror'
      exact ⟨rfl, trivial⟩

/-- The judgement for computations that give one answer. -/
theorem agree {α : Type} {answer answer' : Except HostError α} {x y : MatchM α}
    (hx : ∀ s, Answers subject base answer x s) (hy : ∀ s, Answers subject base answer' y s)
    (hanswer : answer' = answer) :
    Agree (Beside subject base) (fun _ _ => True) x y fun a b => a = b ∧ answer = .ok a :=
  fun s t hst => hst.alike (hx s) (hy t) hanswer

theorem agree_eq {α : Type} {answer answer' : Except HostError α} {x y : MatchM α}
    (hx : ∀ s, Answers subject base answer x s) (hy : ∀ s, Answers subject base answer' y s)
    (hanswer : answer' = answer) : Agree (Beside subject base) (fun _ _ => True) x y Eq :=
  (agree hx hy hanswer).weaken fun _ _ h => h.1

/-- Lists that are made on both sides are twins. -/
theorem newList (items : List Value) :
    Agree (Beside subject base) (fun _ _ => True) (Matcher.newList items) (Matcher.newList items)
      fun v w => ∃ a b, v = .list a items ∧ w = .list b items ∧
        base.host.nextIdentity ≤ a ∧ base.host.nextIdentity ≤ b := by
  intro s t hst
  refine ⟨{ hst with left := ?_, right := ?_ }, _, _, rfl, rfl, hst.left.identity, hst.right.identity⟩
  · exact hst.left.of_frame (Frame.allocate s) rfl
  · exact hst.right.of_frame (Frame.allocate t) rfl

theorem newDict (entries : List (Value × Value)) :
    Agree (Beside subject base) (fun _ _ => True) (Matcher.newDict entries) (Matcher.newDict entries)
      (Value.Twin base.host.nextIdentity) := by
  intro s t hst
  refine ⟨{ hst with left := ?_, right := ?_ }, .dict entries hst.left.identity hst.right.identity⟩
  · exact hst.left.of_frame (Frame.allocate s) rfl
  · exact hst.right.of_frame (Frame.allocate t) rfl

variable {path : AccessPath} {v w : Value}

/-- **The elements lead on.** A slice leads to the list that is made of it. -/
theorem shows_of_elements (h : base.host.Denotes subject path v) {items : List Value}
    (hitems : base.host.elementsOf v = .ok items) (target : Target) (htarget : target.Among items) :
    Shows (Beside subject base) (fun _ _ => True) (Seen subject base) path target := by
  cases target with
  | part piece =>
    obtain ⟨position, hstep, hvalue⟩ := htarget
    refine ⟨h.push ?_, .same piece.value⟩
    rw [hstep, Host.part, hitems]
    exact hvalue
  | slice start slice =>
    obtain ⟨-, hslice⟩ := htarget
    refine (newList slice).weaken ?_
    rintro _ _ ⟨a, b, rfl, rfl, ha, hb⟩
    refine ⟨(h.push (w := .list 0 slice) ?_).congr rfl, .list slice ha hb⟩
    rw [Host.part, hitems, Nat.add_sub_cancel_left]
    exact congrArg (fun items => some (Value.list 0 items)) hslice.symm

theorem agree_elements (h : Seen subject base path v w) :
    Agree (Beside subject base) (fun _ _ => True) (observe (.elements path v))
      (observe (.elements path w)) fun xs ys => xs = ys ∧
        ∀ target : Target, target.Among xs →
          Shows (Beside subject base) (fun _ _ => True) (Seen subject base) path target := by
  refine (agree (Truthful.look (faithful_elements base.host v) h.1)
    (Truthful.look (faithful_elements base.host w) h.right)
    (h.eq_of_faceless base.host.elementsOf base.host.elementsOf_faceless)).weaken ?_
  rintro items _ ⟨rfl, hitems⟩
  exact ⟨rfl, shows_of_elements h.1 hitems⟩

theorem agree_mapping (h : Seen subject base path v w) :
    Agree (Beside subject base) (fun _ _ => True) (observe (.mapping path v))
      (observe (.mapping path w)) fun a b => a = b ∧
        ∀ key x, a.get? key = some x → Seen subject base (path.push (.key key)) x x := by
  refine (agree (Truthful.look (faithful_mapping base.host v) h.1)
    (Truthful.look (faithful_mapping base.host w) h.right)
    (h.eq_of_faceless (fun v => (Question.mapping v).answer base.host)
      base.host.mapping_faceless)).weaken ?_
  rintro view _ ⟨rfl, hview⟩
  refine ⟨rfl, fun key x hx => h.push ?_⟩
  simp only [Question.mapping] at hview
  rw [Host.part]
  cases hentries : base.host.entriesOf v with
  | error e =>
    rw [hentries] at hview
    cases hview
  | ok entries =>
    rw [hentries] at hview
    cases hview
    exact hx

theorem agree_components (h : Seen subject base path v w) :
    Agree (Beside subject base) (fun _ _ => True) (observe (.components path v))
      (observe (.components path w)) fun xs ys => xs = ys ∧
        ∀ part : Part, part.Among xs → Seen subject base (path.push part.step) part.value part.value := by
  refine (agree (Truthful.look (faithful_components base.host v) h.1)
    (Truthful.look (faithful_components base.host w) h.right)
    (h.eq_of_faceless base.host.componentsOf base.host.componentsOf_faceless)).weaken ?_
  rintro items _ ⟨rfl, hitems⟩
  refine ⟨rfl, fun part hpart => h.push ?_⟩
  obtain ⟨position, hstep, hvalue⟩ := hpart
  have hitems : base.host.componentsOf v = .ok items := hitems
  rw [hstep, Host.part, hitems]
  exact hvalue

theorem agree_fetch (name : Name) (h : Seen subject base path v w) :
    Agree (Beside subject base) (fun _ _ => True) (observe (.attribute? path v name))
      (observe (.attribute? path w name)) fun a b => a = b ∧
        ∀ x, a = some x → Seen subject base (path.push (.field name)) x x := by
  refine (agree (Truthful.look (faithful_field base.host v name) h.1)
    (Truthful.look (faithful_field base.host w name) h.right)
    (h.eq_of_faceless (base.host.attributeOf · name) (base.host.attributeOf_faceless · name))).weaken ?_
  rintro found _ ⟨rfl, hfound⟩
  refine ⟨rfl, fun x hx => h.push ?_⟩
  have hfound : base.host.attributeOf v name = .ok found := hfound
  rw [Host.part, hfound, hx]
  rfl

/-- A name is bound on both sides to twins or on none. -/
theorem get?_related {a b : Bindings Value} {base : Identity} (h : a.Related (Value.Twin base) b)
    (name : Name) : (a.get? name).map Value.faceless = (b.get? name).map Value.faceless := by
  obtain ⟨xs⟩ := a
  obtain ⟨ys⟩ := b
  simp only [Bindings.get?, Option.map_map]
  change List.Forall₂ _ xs ys at h
  induction h with
  | nil => rfl
  | @cons x y xs ys hslot _ ih =>
    obtain ⟨hname, htwin⟩ := hslot
    rw [List.findRev?, List.findRev?]
    cases hx : xs.findRev? (fun slot => slot.1 = name) <;>
      cases hy : ys.findRev? (fun slot => slot.1 = name) <;> rw [hx, hy] at ih
    · by_cases h : y.1 = name
      · simpa [hname, h] using htwin.faceless
      · simp [hname, h]
    · cases ih
    · cases ih
    · exact ih

/-- A guard does not tell twins apart. -/
theorem guardHolds_related {a b : Bindings Value} {base : Identity}
    (h : a.Related (Value.Twin base) b) (host : Host) (guard : GuardRef) :
    host.guardHolds guard b = host.guardHolds guard a := by
  -- A guard reads bindings only as numbers or as truth values, which do not depend on the face.
  have hread {α : Type} (read : Value → α) (hface : ∀ v : Value, read v.faceless = read v)
      (name : Name) : (b.get? name).map read = (a.get? name).map read := by
    have := congrArg (Option.map read) (get?_related h name)
    simpa [Option.map_map, Function.comp_def, hface] using this.symm
  have hbind (found : Option Value) : found.bind Value.asInt? = (found.map Value.asInt?).join := by
    cases found <;> rfl
  have hany (found : Option Value) : found.any Value.truthy = (found.map Value.truthy).any id := by
    cases found <;> rfl
  unfold Host.guardHolds
  cases host.guards[guard.index]? with
  | none => rfl
  | some condition =>
    cases condition with
    | intAbove name bound =>
      simp only [Host.conditionHolds, hbind, hread Value.asInt? Value.asInt?_faceless]
    | bound name => simp only [Host.conditionHolds, hany, hread Value.truthy Value.truthy_faceless]
    | _ => rfl

/-- A constant is compared with twins alike. A string constant has an identity of its own on each side,
    which is not compared. -/
theorem matchLiteral (constant : Literal) (h : Seen subject base path v w) :
    Agree (Beside subject base) (fun _ _ => True) (Matcher.matchLiteral constant v)
      (Matcher.matchLiteral constant w) Eq := by
  unfold Matcher.matchLiteral
  refine Agree.get_bind fun s t hst => ?_
  have hnames : s.host.names = t.host.names :=
    hst.left.world.names.trans hst.right.world.names.symm
  cases hsingleton : constant.isSingleton with
  | true =>
    have hsame : s.host.literal constant = t.host.literal constant := by
      cases constant <;> first | rfl | cases hsingleton
    simp only [if_true]
    refine ⟨hst, ?_⟩
    rw [← hsame]
    exact (h.eq_of_faceless (·.identical (s.host.literal constant)) fun v =>
      v.identical_faceless s.host hsingleton).symm
  | false =>
    simp only [Bool.false_eq_true, if_false]
    have hequal : w.looseEq (t.host.literal constant) = v.looseEq (s.host.literal constant) := by
      rw [← h.eq_of_faceless (·.looseEq (s.host.literal constant)) (·.looseEq_faceless _)]
      cases constant with
      | str name =>
        simp only [Host.literal, hnames]
        cases w <;> simp [Value.looseEq, Value.numberEq?, Value.asNumber?]
      | _ => rfl
    have hv : Answers subject base _ (askHost (.equals v (s.host.literal constant))) s :=
      Truthful.ask (fun _ => rfl) s
    have hw : Answers subject base _ (askHost (.equals w (t.host.literal constant))) t :=
      Truthful.ask (fun _ => rfl) t
    exact (hst.alike hv hw (congrArg Except.ok hequal)).weaken fun _ _ h => h.1

/-- A guard is evaluated alike. -/
theorem guard (hst : Beside subject base s t) (guard : GuardRef) :
    Alike (Beside subject base) (fun _ _ => True) Eq (askHost (.guard guard s.bindings) s)
      (askHost (.guard guard t.bindings) t) := by
  have hsteady (bindings : Bindings Value) {other : Host} (hworld : base.host.SameWorld other) :
      (Question.guard guard bindings).answer other = (Question.guard guard bindings).answer base.host :=
    hworld.congr (fun host => host.guardHolds guard bindings) fun _ _ _ => rfl
  have hs : Answers subject base _ (askHost (.guard guard s.bindings)) s :=
    Truthful.ask (hsteady s.bindings) s
  have ht : Answers subject base _ (askHost (.guard guard t.bindings)) t :=
    Truthful.ask (hsteady t.bindings) t
  exact (hst.alike hs ht (guardHolds_related hst.bindings base.host guard)).weaken fun _ _ h => h.1

/-- **Two matchers side by side stay side by side.** -/
theorem correspondence (subject : Value) (base : Matcher) :
    RunCorrespondence (Beside subject base) (fun _ _ => True) (Seen subject base)
      (Value.Twin base.host.nextIdentity) where
  thrown _ := trivial
  limit hst := by simp only [limitReached?, hst.depth, hst.maxDepth]
  deeper hst := hst.moved (congrArg (· + 1) hst.depth) hst.bindings
  shallower hst := hst.moved (congrArg (· - 1) hst.depth) hst.bindings
  failsShallower _ := trivial
  mark hst := hst.bindings.length_eq
  truncate mark hst := hst.moved hst.depth (List.forall₂_take mark hst.bindings)
  bind name hvw hst := hst.moved hst.depth (List.rel_append hst.bindings (.cons ⟨rfl, hvw⟩ .nil))
  mapKey hst := by
    have hnames := hst.left.world.names.trans hst.right.world.names.symm
    funext value
    simp only [Host.mapKey, hnames]
  type h := h.type_eq.symm
  bound h := h.2
  kindOf h := agree_eq (Truthful.kindOf _) (Truthful.kindOf _) (by rw [h.type_eq])
  elements := agree_elements
  mapping := agree_mapping
  components := agree_components
  declared h := agree_eq (Truthful.look (faithful_declared base.host _) h.1)
    (Truthful.look (faithful_declared base.host _) h.right)
    (congrArg (fun type => (Question.matchArgs type).answer base.host) h.type_eq)
  fetch name h := agree_fetch name h
  isInstance {_ v w} type h :=
    agree_eq (Truthful.ask fun hworld => hworld.congr _ fun _ _ _ => rfl)
      (Truthful.ask fun hworld => hworld.congr _ fun _ _ _ => rfl)
      (congrArg (fun found => Except.ok (base.host.types.isSubtype found type)) h.type_eq)
  equals expected h :=
    agree_eq (Truthful.ask fun _ => rfl) (Truthful.ask fun _ => rfl)
      (congrArg Except.ok (h.eq_of_faceless (·.looseEq expected) (·.looseEq_faceless expected)))
  literal constant h := matchLiteral constant h
  value expr :=
    have hsteady {other : Host} (hworld : base.host.SameWorld other) :
        (Question.value expr).answer other = (Question.value expr).answer base.host :=
      hworld.congr (fun host => host.valueOf expr) fun _ _ _ => rfl
    agree_eq (Truthful.ask hsteady) (Truthful.ask hsteady) rfl
  newDict := newDict
  reset hst := hst.moved hst.depth .nil
  bindings hst := hst.bindings
  guard guard hst := hst.guard guard

end Beside

end Matcher

end StructuralMatch

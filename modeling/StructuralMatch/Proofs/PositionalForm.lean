import StructuralMatch.Proofs.Transparency

/-!
# `Proofs.PositionalForm` — positional sub-patterns stand for keywords

On a value of a class with default mode the positional sub-patterns of a class pattern stand for keywords
with the names that the class declares. The pattern does the same when it is written with these keywords,
but for one thing: the names need not be looked up then, so that one question less is put to the host.

* `Ahead` relates the matcher of the positional form to that of the keyword form: the first may have looked
  up the names that the class of the value at one path declares, and nothing else is different.
* No look at another path tells the two apart, nor does the fetching of attributes at this one. As the parts
  of the value have longer paths, all patterns below do the same (`Ahead.correspondence`).
* The main result is `positional_as_keywords`.
-/

namespace StructuralMatch

/-! ## One more item -/

/-- The first list is the second one, perhaps with one more `x` somewhere. -/
def OneMore {α : Type} (x : α) (more less : List α) : Prop :=
  more = less ∨ ∃ before after, more = before ++ x :: after ∧ less = before ++ after

namespace OneMore

variable {α : Type} {x : α} {more less : List α}

theorem snoc (y : α) (h : OneMore x more less) : OneMore x (more ++ [y]) (less ++ [y]) := by
  rcases h with rfl | ⟨before, after, rfl, rfl⟩
  · exact .inl rfl
  · exact .inr ⟨before, after ++ [y], by simp, by simp⟩

theorem cons (y : α) (h : OneMore x more less) : OneMore x (y :: more) (y :: less) := by
  rcases h with rfl | ⟨before, after, rfl, rfl⟩
  · exact .inl rfl
  · exact .inr ⟨y :: before, after, by simp, by simp⟩

end OneMore

/-- What is remembered about a value apart from the names that its class declares. -/
def NodeMemo.withoutNames (memo : NodeMemo) : NodeMemo := { memo with declared := none }

namespace Matcher

variable {α : Type} {path : AccessPath} {value : Value} {s t : Matcher}

/-! ## Ahead by the declared names -/

/-- The two memories are the same, except that the names that are declared for the value at the path may
    be known to one of them only. -/
structure SameButNames (path : AccessPath) (a b : Scratch) : Prop where
  others : ∀ other, other ≠ path → a.memo other = b.memo other
  here : (a.memo path).withoutNames = (b.memo path).withoutNames

namespace SameButNames

variable {a b : Scratch}

theorem visit (h : SameButNames path a b) (other : AccessPath) :
    SameButNames path (a.visit other).2 (b.visit other).2 :=
  ⟨fun p hp => by simp only [Scratch.memo_visit, h.others p hp], by simp only [Scratch.memo_visit, h.here]⟩

theorem noted (h : SameButNames path a b) (other : AccessPath) (event : Event) :
    SameButNames path (a.noted other event) (b.noted other event) :=
  ⟨fun p hp => by simp only [Scratch.memo_noted, h.others p hp], by simp only [Scratch.memo_noted, h.here]⟩

/-- What is learnt about another part is the same on both sides. -/
theorem learnt {other : AccessPath} (h : SameButNames path a b) (hother : other ≠ path) (event : Event)
    (change : NodeMemo → NodeMemo) :
    SameButNames path (a.learnt other event change) (b.learnt other event change) where
  others p hp := by simp only [Scratch.memo_learnt, h.others p hp, h.others other hother]
  here := by simp only [Scratch.memo_learnt, if_neg hother.symm, h.here]

/-- The attributes that were fetched are the same on both sides. -/
theorem attributes (h : SameButNames path a b) : (a.memo path).attributes = (b.memo path).attributes := by
  have hhere : (a.memo path).withoutNames.attributes = (b.memo path).withoutNames.attributes := by
    rw [h.here]
  exact hhere

/-- An attribute of the value itself is learnt alike. -/
theorem learnt_attribute (h : SameButNames path a b) (event : Event) (name : Name)
    (found : Option Value) :
    let keep (memo : NodeMemo) := { memo with attributes := (name, found) :: memo.attributes }
    SameButNames path (a.learnt path event keep) (b.learnt path event keep) where
  others p hp := by simp only [Scratch.memo_learnt, if_neg hp, h.others p hp]
  here := by
    simp only [Scratch.memo_learnt, if_true]
    show { (a.memo path).withoutNames with attributes := (name, found) :: (a.memo path).attributes } =
      { (b.memo path).withoutNames with attributes := (name, found) :: (b.memo path).attributes }
    rw [h.here, h.attributes]

end SameButNames

/-- The matcher, had it another log and another memory. -/
def having (t : Matcher) (log : Array Event) (scratch : Scratch) : Matcher :=
  { t with host := { t.host with log }, scratch }

/-- **The first matcher may have looked up the names that are declared for the value at the path**, once and
    for the type of the value. Everything else is the same. -/
structure Ahead (path : AccessPath) (type : TypeId) (s t : Matcher) : Prop where
  same : s = t.having s.host.log s.scratch
  log : OneMore (.matchArgs type) s.host.log.toList t.host.log.toList
  asked : OneMore (path, .matchArgs type) s.scratch.asked t.scratch.asked
  memo : SameButNames path s.scratch t.scratch

namespace Ahead

variable {type : TypeId}

theorem refl (path : AccessPath) (type : TypeId) (s : Matcher) : Ahead path type s s :=
  ⟨rfl, .inl rfl, .inl rfl, ⟨fun _ _ => rfl, rfl⟩⟩

theorem exists_having (hst : Ahead path type s t) : ∃ log scratch, s = t.having log scratch :=
  ⟨_, _, hst.same⟩

/-- A question that both matchers put is one more question on both sides. -/
theorem record (hst : Ahead path type s t) (event : Event) :
    OneMore (.matchArgs type) (s.host.record event).log.toList (t.host.record event).log.toList := by
  simpa [Host.record] using hst.log.snoc event

/-- The host gives both matchers the same answer, if it does not depend on what was asked before. -/
theorem answer_eq (hst : Ahead path type s t) {question : Question α}
    (hsteady : ∀ (host : Host) log, question.answer { host with log } = question.answer host) :
    question.answer (s.host.record question.event) = question.answer (t.host.record question.event) := by
  rw [hst.same]
  exact (hsteady t.host _).trans (hsteady t.host _).symm

/-- **A question is answered alike.** -/
theorem ask {question : Question α}
    (hsteady : ∀ (host : Host) log, question.answer { host with log } = question.answer host) :
    Agree (Ahead path type) (Ahead path type) (askHost question) (askHost question) Eq := by
  intro s t hst
  have hsame := hst.answer_eq hsteady
  have hrecord := hst.record question.event
  obtain ⟨log, scratch, rfl⟩ := hst.exists_having
  cases hanswer : question.answer (t.host.record question.event) with
  | ok a =>
    rw [askHost_of_answer hanswer, askHost_of_answer (hsame.trans hanswer)]
    exact ⟨⟨rfl, hrecord, hst.asked, hst.memo⟩, rfl⟩
  | error e =>
    rw [askHost_of_error hanswer, askHost_of_error (hsame.trans hanswer)]
    exact ⟨rfl, ⟨rfl, hrecord, hst.asked, hst.memo⟩⟩

/-- **A look is answered alike**, be it from memory or by the host, if it reads the same in both memories
    and what it keeps leaves them the same. -/
theorem look {other : AccessPath} {read : NodeMemo → Option α} {keep : α → NodeMemo → NodeMemo}
    {question : Question α}
    (hsteady : ∀ (host : Host) log, question.answer { host with log } = question.answer host)
    (hread : ∀ {a b : Scratch}, SameButNames path a b → read (a.memo other) = read (b.memo other))
    (hkeep : ∀ {a b : Scratch} x, SameButNames path a b →
      SameButNames path (a.learnt other question.event (keep x))
        (b.learnt other question.event (keep x))) :
    Agree (Ahead path type) (Ahead path type) (observe (askOnce other read keep question))
      (observe (askOnce other read keep question)) Eq := by
  intro s t hst
  have hsame := hst.answer_eq hsteady
  have hrecord := hst.record question.event
  have hread := hread hst.memo
  obtain ⟨log, scratch, rfl⟩ := hst.exists_having
  unfold observe
  cases hslot : read (t.scratch.memo other) with
  | some a =>
    rw [askOnce_of_known t.toObserver hslot, askOnce_of_known _ (hread.trans hslot)]
    refine ⟨⟨rfl, hst.log, ?_, hst.memo.visit other⟩, rfl⟩
    simpa using hst.asked
  | none =>
    cases hanswer : question.answer (t.host.record question.event) with
    | ok a =>
      rw [askOnce_of_answer t.toObserver hslot hanswer,
        askOnce_of_answer _ (hread.trans hslot) (hsame.trans hanswer)]
      refine ⟨⟨rfl, hrecord, ?_, hkeep a hst.memo⟩, rfl⟩
      simpa using hst.asked.cons (other, question.event)
    | error e =>
      rw [askOnce_of_error t.toObserver hslot hanswer,
        askOnce_of_error _ (hread.trans hslot) (hsame.trans hanswer)]
      refine ⟨rfl, ⟨rfl, hrecord, ?_, hst.memo.noted other question.event⟩⟩
      simpa using hst.asked.cons (other, question.event)

theorem bindings (hst : Ahead path type s t) : s.bindings = t.bindings := by
  rw [hst.same]
  rfl

theorem depth (hst : Ahead path type s t) : s.depth = t.depth := by
  rw [hst.same]
  rfl

/-- Matchers whose bindings and depth are changed alike stay related. -/
theorem moved (hst : Ahead path type s t) {bindings bindings' : Bindings Value} {depth depth' : Nat}
    (hbindings : bindings = bindings') (hdepth : depth = depth') :
    Ahead path type { s with bindings, depth } { t with bindings := bindings', depth := depth' } := by
  subst hbindings hdepth
  obtain ⟨log, scratch, rfl⟩ := hst.exists_having
  exact ⟨rfl, hst.log, hst.asked, hst.memo⟩

theorem kindOf (value : Value) :
    Agree (Ahead path type) (Ahead path type) (Matcher.kindOf value) (Matcher.kindOf value) Eq := by
  intro s t hst
  obtain ⟨log, scratch, rfl⟩ := hst.exists_having
  exact ⟨⟨rfl, hst.log, hst.asked, hst.memo⟩, rfl⟩

/-- New values are the same, as both hosts have made the same number of them. -/
theorem newList (items : List Value) :
    Agree (Ahead path type) (Ahead path type) (Matcher.newList items) (Matcher.newList items) Eq := by
  intro s t hst
  obtain ⟨log, scratch, rfl⟩ := hst.exists_having
  exact ⟨⟨rfl, hst.log, hst.asked, hst.memo⟩, rfl⟩

theorem newDict (entries : List (Value × Value)) :
    Agree (Ahead path type) (Ahead path type) (Matcher.newDict entries) (Matcher.newDict entries) Eq := by
  intro s t hst
  obtain ⟨log, scratch, rfl⟩ := hst.exists_having
  exact ⟨⟨rfl, hst.log, hst.asked, hst.memo⟩, rfl⟩

theorem matchLiteral (constant : Literal) (value : Value) :
    Agree (Ahead path type) (Ahead path type) (Matcher.matchLiteral constant value)
      (Matcher.matchLiteral constant value) Eq := by
  unfold Matcher.matchLiteral
  refine Agree.get_bind fun s t hst => ?_
  have hconstant : s.host.literal constant = t.host.literal constant := by
    rw [hst.same]
    cases constant <;> rfl
  rw [hconstant]
  split
  · exact ⟨hst, rfl⟩
  · exact ask (fun _ _ => rfl) s t hst

/-! ### Below the path -/

/-- Both sides look at one value, which lies deeper than the path. -/
def Below (path other : AccessPath) (v w : Value) : Prop := v = w ∧ path.size < other.size

theorem below_push {other : AccessPath} (h : path.size ≤ other.size) (step : PathStep) (v : Value) :
    Below path (other.push step) v v :=
  ⟨rfl, by rw [Array.size_push]; omega⟩

/-- **A look at a part below is answered alike.** -/
theorem lookBelow {other : AccessPath} (h : path.size < other.size) {read : NodeMemo → Option α}
    {keep : α → NodeMemo → NodeMemo} {question : Question α}
    (hsteady : ∀ (host : Host) log, question.answer { host with log } = question.answer host) :
    Agree (Ahead path type) (Ahead path type) (observe (askOnce other read keep question))
      (observe (askOnce other read keep question)) Eq := by
  have hne : other ≠ path := by
    rintro rfl
    exact Nat.lt_irrefl _ h
  exact look hsteady (fun hab => by rw [hab.others other hne]) fun x hab => hab.learnt hne _ (keep x)

/-- **Attributes of the value itself are fetched alike.** -/
theorem fetchHere (value : Value) (name : Name) :
    Agree (Ahead path type) (Ahead path type) (observe (.attribute? path value name))
      (observe (.attribute? path value name)) fun a b =>
        a = b ∧ ∀ x, a = some x → Below path (path.push (.field name)) x x := by
  have hlook : Agree (Ahead path type) (Ahead path type) (observe (.attribute? path value name))
      (observe (.attribute? path value name)) Eq :=
    look (fun _ _ => rfl) (fun hab => by rw [hab.attributes])
      fun found hab => hab.learnt_attribute _ name found
  exact hlook.weaken fun a b hab => ⟨hab, fun x _ => below_push (Nat.le_refl _) _ x⟩

theorem shows {other : AccessPath} (h : path.size < other.size) (target : Target) :
    Shows (Ahead path type) (Ahead path type) (Below path) other target := by
  cases target with
  | part piece => exact below_push (Nat.le_of_lt h) _ piece.value
  | slice start items =>
    exact (newList items).weaken fun v w hvw => ⟨hvw, (below_push (Nat.le_of_lt h) _ v).2⟩

/-- **All patterns below the path do the same.** -/
theorem correspondence (path : AccessPath) (type : TypeId) :
    Correspondence (Ahead path type) (Ahead path type) (Below path) Eq where
  thrown hst := hst
  limit hst := by
    rw [hst.same]
    rfl
  deeper hst := hst.moved hst.bindings (by rw [hst.depth])
  shallower hst := hst.moved hst.bindings (by rw [hst.depth])
  failsShallower hst := hst.moved hst.bindings (by rw [hst.depth])
  mark hst := by rw [hst.bindings]
  truncate mark hst := hst.moved (by rw [hst.bindings]) hst.depth
  bind name hvw hst := hst.moved (by rw [hst.bindings, hvw]) hst.depth
  mapKey hst := by
    rw [hst.same]
    rfl
  type h := by rw [h.1]
  bound h := h.1
  kindOf h := by
    rw [h.1]
    exact kindOf _
  elements := by
    rintro other v _ ⟨rfl, h⟩
    exact (lookBelow h fun _ _ => rfl).weaken fun _ _ hab => ⟨hab, fun target _ => shows h target⟩
  mapping := by
    rintro other v _ ⟨rfl, h⟩
    exact (lookBelow h fun _ _ => rfl).weaken fun _ _ hab =>
      ⟨hab, fun _ x _ => below_push (Nat.le_of_lt h) _ x⟩
  components := by
    rintro other v _ ⟨rfl, h⟩
    exact (lookBelow h fun _ _ => rfl).weaken fun _ _ hab =>
      ⟨hab, fun part _ => below_push (Nat.le_of_lt h) _ part.value⟩
  declared := by
    rintro other v _ ⟨rfl, h⟩
    exact lookBelow h fun _ _ => rfl
  fetch := by
    rintro other v _ name ⟨rfl, h⟩
    exact (lookBelow h fun _ _ => rfl).weaken fun _ _ hab =>
      ⟨hab, fun x _ => below_push (Nat.le_of_lt h) _ x⟩
  isInstance target h := by
    rw [h.1]
    exact ask fun _ _ => rfl
  equals expected h := by
    rw [h.1]
    exact ask fun _ _ => rfl
  literal constant h := by
    rw [h.1]
    exact matchLiteral constant _
  value expr := ask fun _ _ => rfl
  newDict := newDict

end Ahead

/-! ## The names of the positional sub-patterns -/

/-- The names that the class of the value at the path declares, as the matcher knows them or would be told. -/
def declaredNames (s : Matcher) (path : AccessPath) (value : Value) : List Name :=
  (s.scratch.memo path).declared.getD (s.host.types.matchArgs value.type)

/-- What a true memory knows of the names is what the class declares. -/
theorem declaredNames_of_truthful {subject : Value} {base : Matcher} (hs : Truthful subject base s)
    (hpath : base.host.Denotes subject path value) :
    s.declaredNames path value = s.host.types.matchArgs value.type := by
  unfold declaredNames
  cases hknown : (s.scratch.memo path).declared with
  | none => rfl
  | some names =>
    have htrue : base.host.types.matchArgs value.type = names :=
      (hs.memo path value hpath).declared names hknown
    rw [Option.getD_some, hs.world.types, htrue]

/-- **Looking the names up makes no other difference.** -/
theorem exists_declared (path : AccessPath) (value : Value) (t : Matcher) :
    ∃ s, observe (.declared path value) t = .ok (t.declaredNames path value) s ∧
      Ahead path value.type s t := by
  unfold observe declaredNames
  cases hknown : (t.scratch.memo path).declared with
  | some names =>
    rw [ObserverM.declared, askOnce_of_known t.toObserver hknown]
    refine ⟨_, rfl, rfl, .inl rfl, .inl ?_, ⟨fun p _ => ?_, ?_⟩⟩ <;> simp
  | none =>
    rw [ObserverM.declared, askOnce_of_answer t.toObserver hknown rfl]
    refine ⟨_, rfl, rfl, .inr ?_, .inr ?_, ⟨fun p hp => ?_, ?_⟩⟩
    · exact ⟨t.host.log.toList, [], by simp [Host.record, Question.matchArgs], by simp⟩
    · exact ⟨[], t.scratch.asked, by simp [Question.matchArgs], rfl⟩
    · simp only [Scratch.memo_learnt, if_neg hp]
    · simp only [Scratch.memo_learnt, if_true]
      rfl

/-- The first declared names are those of the positional sub-patterns. -/
theorem exists_positionalNames (type : TypeId) {count : Nat} {t : Matcher}
    (hcount : count ≤ (t.declaredNames path value).length) :
    ∃ s, positionalNames type count value path t = .ok ((t.declaredNames path value).take count) s ∧
      Ahead path value.type s t := by
  unfold positionalNames
  by_cases hzero : count = 0
  · rw [if_pos hzero]
    exact ⟨t, by rw [hzero]; rfl, .refl path value.type t⟩
  · obtain ⟨s, hlook, hahead⟩ := exists_declared path value t
    rw [if_neg hzero, bind_of_ok hlook, if_neg (by omega), cutAt_of_le hcount]
    exact ⟨s, rfl, hahead⟩

/-! ## The attributes of both forms -/

/-- The attributes for the given names and for some keywords. -/
def namedParts (names keywords : List Name) (value : Value) (path : AccessPath) :
    MatchM (Option (List Part × List Part)) := do
  let keywords ← keywordNames names keywords
  match ← attributePartsOf value path (names ++ keywords) with
  | none => return none
  | some parts => return some (← cutAt parts names.length)

/-- The attributes of either form are those for the names of its positional sub-patterns. -/
theorem attributeParts_of_names {type : TypeId} {count : Nat} {names : List Name}
    (hnames : positionalNames type count value path t = .ok names s) (hlength : names.length = count)
    (keywords : List Name) :
    attributeParts type count keywords value path t = namedParts names keywords value path s := by
  subst hlength
  unfold attributeParts namedParts
  exact bind_of_ok hnames

/-- The keyword form finds the same parts, all of them for keywords. -/
inductive AllKeywords (count : Nat) :
    Option (List Part × List Part) → Option (List Part × List Part) → Prop
  | missing : AllKeywords count none none
  | found {first second : List Part} : first.length = count →
      AllKeywords count (some (first, second)) (some ([], first ++ second))

/-- **Distinct names may as well be keywords.** -/
theorem agree_namedParts {names : List Name} (hnodup : names.Nodup) (keywords : List Name)
    (value : Value) (path : AccessPath) {type : TypeId} :
    Agree (Ahead path type) (Ahead path type) (namedParts names keywords value path)
      (namedParts [] (names ++ keywords) value path) (AllKeywords names.length) := by
  have hkeywords : keywordNames [] (names ++ keywords) =
      keywordNames names keywords >>= fun found => pure (names ++ found) := by
    unfold keywordNames
    have happend := distinctAfter_append (show ([] ++ names).Nodup from hnodup) keywords
    rw [List.nil_append] at happend
    rw [happend]
    cases distinctAfter names keywords <;> rfl
  unfold namedParts
  rw [hkeywords]
  unfold keywordNames
  cases hdistinct : distinctAfter names keywords with
  | error name => exact fun s t hst => ⟨rfl, hst⟩
  | ok found =>
    obtain rfl := distinctAfter_ok hdistinct
    simp only [pure_bind, List.nil_append]
    refine (Agree.attributePartsOf (Ahead.fetchHere value) (names ++ found)).bind ?_
    rintro parts _ ⟨rfl, hparts⟩
    cases parts with
    | none => exact Agree.pure .missing
    | some parts =>
      obtain ⟨hlength, -⟩ := hparts parts rfl
      have hle : names.length ≤ parts.length := by
        rw [hlength, List.length_append]
        omega
      have hfound : AllKeywords names.length (some (parts.take names.length, parts.drop names.length))
          (some ([], parts.take names.length ++ parts.drop names.length)) :=
        .found (List.length_take_of_le hle)
      rw [List.take_append_drop] at hfound
      simp only [cutAt_of_le hle, List.length_nil, cutAt_of_le (Nat.zero_le _), pure_bind]
      exact Agree.pure hfound

/-! ## The pattern -/

/-- **The keywords that stand for the positional sub-patterns are matched in their place.** -/
theorem matchKeywords_zip {names : List Name} {positional : List Pattern} {first : List Part}
    (hnames : names.length = positional.length) (hfirst : first.length = positional.length)
    (keywords : List (Name × Pattern)) (second : List Part) (path : AccessPath) :
    matchKeywords (names.zip positional ++ keywords) (first ++ second) path = do
      if ← matchItems positional (first.map .part) path then matchKeywords keywords second path
      else return false := by
  induction positional generalizing names first with
  | nil =>
    obtain rfl := List.length_eq_zero_iff.mp hnames
    obtain rfl := List.length_eq_zero_iff.mp hfirst
    simp [matchItems]
  | cons pattern positional ih =>
    cases names with
    | nil => cases hnames
    | cons name names =>
      cases first with
      | nil => cases hfirst
      | cons part first =>
        have hrest := ih (Nat.succ.inj hnames) (Nat.succ.inj hfirst)
        rw [List.zip_cons_cons, List.cons_append, List.cons_append, matchKeywords, List.map_cons,
          matchItems, bind_assoc]
        refine bind_congr fun matched => ?_
        cases matched with
        | true => simpa using hrest
        | false => simp

/-- Keywords that stand for positional sub-patterns are there if the latter are. -/
theorem isEmpty_zip_append {names : List Name} {positional : List Pattern}
    (hnames : names.length = positional.length) (keywords : List (Name × Pattern)) :
    (names.zip positional ++ keywords).isEmpty = (positional.isEmpty && keywords.isEmpty) := by
  cases positional with
  | nil => simp
  | cons pattern positional =>
    cases names with
    | nil => cases hnames
    | cons name names => rfl

/-- Matches sub-patterns with the parts that were found for them. -/
def matchAttributes (positional : List Pattern) (keywords : List (Name × Pattern)) (path : AccessPath) :
    Option (List Part × List Part) → MatchM Bool
  | none => return false
  | some (first, second) => do
    if ← matchItems positional (first.map .part) path then matchKeywords keywords second path
    else return false

/-- **Finding the attributes and matching the sub-patterns with them is alike.** -/
theorem alike_matchAttributes {positional : List Pattern}
    (hcount : positional.length ≤ (t.declaredNames path value).length)
    (hdistinct : ((t.declaredNames path value).take positional.length).Nodup) (type : TypeId)
    (keywords : List (Name × Pattern)) :
    let asKeywords := ((t.declaredNames path value).take positional.length).zip positional ++ keywords
    Alike (Ahead path value.type) (Ahead path value.type) Eq
      ((attributeParts type positional.length (keywords.map (·.1)) value path >>=
        matchAttributes positional keywords path) t)
      ((attributeParts type 0 (asKeywords.map (·.1)) value path >>= matchAttributes [] asKeywords path) t) := by
  intro asKeywords
  obtain ⟨s, hnames, hst⟩ := exists_positionalNames type hcount
  have hnone : positionalNames type 0 value path t = .ok [] t := rfl
  have hlength : ((t.declaredNames path value).take positional.length).length = positional.length :=
    List.length_take_of_le hcount
  have hzip : asKeywords.map (·.1) =
      (t.declaredNames path value).take positional.length ++ keywords.map (·.1) := by
    rw [List.map_append, List.map_fst_zip (Nat.le_of_eq hlength)]
  rw [bind_eq_bind (attributeParts_of_names hnames hlength _), hzip,
    bind_eq_bind (attributeParts_of_names hnone rfl _)]
  refine Alike.bind (agree_namedParts hdistinct _ value path s t hst) fun found all hfound => ?_
  cases hfound with
  | missing => exact Agree.pure rfl
  | @found first second hfirst =>
    have hbelow (part : Part) : Ahead.Below path (path.push part.step) part.value part.value :=
      Ahead.below_push (Nat.le_refl _) part.step part.value
    have c := Ahead.correspondence path value.type
    have hrest := c.matchKeywords keywords second path fun part _ => hbelow part
    unfold matchAttributes
    dsimp only
    rw [matchItems, pure_bind, if_pos rfl, matchKeywords_zip hlength (hfirst.trans hlength)]
    refine Agree.goOn (c.matchItems positional (first.map .part) path fun target htarget => ?_) hrest
    obtain ⟨part, -, rfl⟩ := List.mem_map.mp htarget
    exact hbelow part

/-- **On a value of a class with default mode** the targets of the sub-patterns are attributes. -/
theorem bind_classTargets {onTargets : ClassTargets → MatchM Bool} (positional : List Pattern)
    (keywords : List (Name × Pattern)) (hmode : (t.kindAt value.type).classMode = .default)
    (hnone : onTargets .none = pure false)
    (hparts : ∀ first second,
      onTargets (.parts first second) = matchAttributes positional keywords path (some (first, second)))
    (type : TypeId) (count : Nat) (names : List Name) :
    (classTargets type count names value path >>= onTargets) t =
      (attributeParts type count names value path >>= matchAttributes positional keywords path)
        { t with kinds := (t.kinds.resolve t.host.types value.type).2 } := by
  have htargets : classTargets type count names value path t =
      (do return ClassTargets.ofParts (← attributeParts type count names value path))
        { t with kinds := (t.kinds.resolve t.host.types value.type).2 } := by
    unfold classTargets
    rw [bind_of_ok (kindOf_eq value t), hmode]
  rw [bind_eq_bind htargets, bind_assoc]
  refine congrFun (bind_congr fun found => ?_) _
  cases found with
  | none => exact hnone
  | some parts => exact hparts parts.1 parts.2

/-- **Positional sub-patterns stand for keywords.** On a value whose class has default mode and declares as
    many distinct names as there are positional sub-patterns, a class pattern and the pattern with keywords
    in place of its positional sub-patterns both match, both fail or both end in the same error. They leave
    the same matcher behind, except that the first may have looked up the declared names: its log has at
    most one question more, which is the one for these names. The declared names are those that the matcher
    knows or would be told, which is what the class declares if the memory is true. -/
theorem positional_as_keywords (type : TypeId) (positional : List Pattern)
    (keywords : List (Name × Pattern)) (value : Value) (path : AccessPath) (s : Matcher)
    (hmode : (s.kindAt value.type).classMode = .default)
    (hcount : positional.length ≤ (s.declaredNames path value).length)
    (hdistinct : ((s.declaredNames path value).take positional.length).Nodup) :
    Alike (Ahead path value.type) (Ahead path value.type) Eq
      (matchPattern (.ofClass type positional keywords) value path s)
      (matchPattern (.ofClass type [] ((s.declaredNames path value).zip positional ++ keywords)) value
        path s) ∧
      ∀ (subject : Value) (base : Matcher), Truthful subject base s →
        base.host.Denotes subject path value →
          s.declaredNames path value = s.host.types.matchArgs value.type := by
  refine ⟨?_, fun subject base hs hpath => declaredNames_of_truthful hs hpath⟩
  have hzip : (s.declaredNames path value).zip positional =
      ((s.declaredNames path value).take positional.length).zip positional := by
    rw [List.zip_eq_zip_take_min, Nat.min_eq_right hcount, List.take_length]
  have hlength : ((s.declaredNames path value).take positional.length).length = positional.length :=
    List.length_take_of_le hcount
  rw [hzip, matchPattern, matchPattern]
  refine (Ahead.correspondence path value.type).descendFrom (.refl path value.type s) ?_
  -- Up to the look at the kind both forms do the same.
  let asked : Matcher :=
    { s with depth := s.depth + 1, host := s.host.record (Question.isInstance value type).event }
  have hask : askHost (.isInstance value type) { s with depth := s.depth + 1 } =
      .ok (s.host.isInstanceOf value type) asked := askHost_of_answer rfl
  rw [bind_of_ok hask, bind_of_ok hask]
  cases s.host.isInstanceOf value type with
  | false => exact .refl (.refl path value.type) _
  | true =>
    simp only [Bool.not_true, Bool.false_eq_true, if_false, List.isEmpty_nil, Bool.true_and,
      isEmpty_zip_append hlength keywords]
    split
    · exact .refl (.refl path value.type) _
    · have hkind : (asked.kindAt value.type).classMode = .default := hmode
      rw [bind_classTargets positional keywords hkind rfl fun _ _ => rfl,
        bind_classTargets [] _ hkind rfl fun _ _ => rfl]
      let ready : Matcher :=
        { asked with kinds := (asked.kinds.resolve asked.host.types value.type).2 }
      exact alike_matchAttributes (t := ready) hcount hdistinct type keywords

/-- `Pair(x, [y, _])` does what `Pair(a=x, b=[y, _])` does, with one question more. -/
theorem positional_as_keywords_pair :
    let a : Name := ⟨20⟩
    let b : Name := ⟨21⟩
    let pair : TypeId := ⟨9⟩
    let definition : ClassDef := { name := ⟨22⟩, base := some .object, matchArgs := [a, b] }
    let host : Host := { Host.initial with
      types := ⟨Host.initial.types.classes ++ [⟨definition, none⟩]⟩ }
    let value : Value := .object 1 pair [(a, .int 1), (b, .list 2 [.int 2, .int 3])] []
    let s : Matcher := ofHost host .empty none
    let first : Pattern := .capture ⟨23⟩
    let second : Pattern := .sequence [.capture ⟨24⟩, .wildcard] none
    (s.kindAt value.type).classMode = .default ∧ s.declaredNames .root value = [a, b] ∧
      ∃ t u, matchPattern (.ofClass pair [first, second] []) value .root s = .ok true t ∧
        matchPattern (.ofClass pair [] [(a, first), (b, second)]) value .root s = .ok true u ∧
          Ahead .root pair t u ∧ t.host.log.size = 5 ∧ u.host.log.size = 4 := by
  intro a b pair definition host value s first second
  have hmode : (s.kindAt value.type).classMode = .default := by decide +kernel
  have hnames : s.declaredNames .root value = [a, b] := by decide +kernel
  obtain ⟨t, hpositional, hmore⟩ := exists_of_run'_get (fun t => t.host.log.size) (s := s)
    (x := matchPattern (.ofClass pair [first, second] []) value .root) (a := true) (b := 5)
    (by decide +kernel)
  obtain ⟨u, hkeywords, hless⟩ := exists_of_run'_get (fun t => t.host.log.size) (s := s)
    (x := matchPattern (.ofClass pair [] [(a, first), (b, second)]) value .root) (a := true) (b := 4)
    (by decide +kernel)
  -- From here on the matcher is known only by what was computed.
  clear_value s
  obtain ⟨halike, -⟩ := positional_as_keywords pair [first, second] [] value .root s hmode
    (by rw [hnames]; decide) (by rw [hnames]; decide)
  have hzip : [a, b].zip [first, second] ++ [] = [(a, first), (b, second)] := rfl
  rw [hnames, hzip, hpositional, hkeywords] at halike
  exact ⟨hmode, hnames, t, u, hpositional, hkeywords, halike.1, hmore, hless⟩

end Matcher

end StructuralMatch

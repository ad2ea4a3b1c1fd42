import StructuralMatch.Proofs.Evaluation
import StructuralMatch.Proofs.Transparency

/-!
# `Proofs.FirstMatch` — a statement is decided by its first clause that matches alone

All clauses of a statement are tried with one memory. This changes nothing: each clause does what it would
do alone, with a matcher that has seen nothing. The statement is decided by the first clause that alone
would win or fail, and there is no match if there is none.

The induction on the clauses keeps the matcher beside a new one (`Beside`). The main result is
`Engine.result_firstMatch`.
-/

namespace StructuralMatch

/-- The statement with one clause only. -/
def Statement.only (statement : Statement) (clause : Clause) : Statement :=
  { statement with clauses := [clause] }

/-- The result of trying every clause with a new matcher. -/
def Engine.resultOf (engine : Engine) (host : Host) (maxDepth : Option Nat) (statement : Statement)
    (subject : Value) : Except MatchError Outcome :=
  (engine.run host maxDepth (Matcher.runInOrder statement subject)).result

/-- Whether a result lets the next clause be tried. -/
def passes : Except MatchError Outcome → Bool
  | .ok .noMatch => true
  | _ => false

/-- **The result of one clause alone decides the whole**: the clause wins, with the same body and with
    bindings that differ at most in the identities of lists and dicts made since `base`; or the
    evaluation ends with the error of the clause. -/
inductive Decides (base : Identity) (index : Nat) :
    (alone whole : Except MatchError Outcome) → Prop
  | wins {body : BodyRef} {a b : Bindings Value} : b.Related (Value.Twin base) a →
      Decides base index (.ok (.matched 0 body a)) (.ok (.matched index body b))
  | fails (e : MatchError) : Decides base index (.error e) (.error e)

/-- **The first clause that does not pass alone decides the whole**, and there is no match if all pass.
    `index` is the number of the first clause. -/
def FirstDecides (base : Identity) (index : Nat) (alone : Clause → Except MatchError Outcome)
    (clauses : List Clause) (whole : Except MatchError Outcome) : Prop :=
  match clauses.findIdx? fun clause => !passes (alone clause) with
  | none => whole = .ok .noMatch
  | some i => ∃ clause, clauses[i]? = some clause ∧ Decides base (index + i) (alone clause) whole

namespace FirstDecides

variable {base : Identity} {index : Nat} {alone : Clause → Except MatchError Outcome} {clause : Clause}
  {rest : List Clause} {whole : Except MatchError Outcome}

theorem here (h : Decides base index (alone clause) whole) :
    FirstDecides base index alone (clause :: rest) whole := by
  have hstops : (!passes (alone clause)) = true := by
    generalize alone clause = result at h
    cases h <;> rfl
  unfold FirstDecides
  rw [List.findIdx?_cons, if_pos hstops]
  exact ⟨clause, rfl, h⟩

theorem later (hpasses : passes (alone clause) = true)
    (h : FirstDecides base (index + 1) alone rest whole) :
    FirstDecides base index alone (clause :: rest) whole := by
  unfold FirstDecides at h ⊢
  rw [List.findIdx?_cons, hpasses]
  cases hfind : rest.findIdx? fun clause => !passes (alone clause) with
  | none =>
    rw [hfind] at h
    exact h
  | some i =>
    rw [hfind] at h
    obtain ⟨first, hfirst, hdecides⟩ := h
    refine ⟨first, hfirst, ?_⟩
    rwa [Nat.add_assoc, Nat.add_comm 1 i] at hdecides

end FirstDecides

namespace Matcher

/-- The result that a search of the clauses gives. -/
def answer : EStateM.Result MatchError Matcher (Option Outcome) → Except MatchError Outcome
  | .ok outcome _ => .ok (outcome.getD .noMatch)
  | .error e _ => .error e

/-- One clause, tried with a matcher that has no bindings. -/
def trial (subject : Value) (index : Nat) (clause : Clause) : MatchM (Option Outcome) :=
  matchPattern clause.pattern subject .root >>= settle index clause

variable {statement : Statement} {subject : Value} {base s : Matcher}

/-- **The first clause that is decided alone decides the rest of the clauses.** -/
theorem tryEach_firstMatch {rest : List Clause} {index : Nat}
    (hrest : statement.clauses.drop index = rest) (hs : Beside subject base s.cleared base) :
    FirstDecides base.host.nextIdentity index (fun clause => answer (trial subject 0 clause base)) rest
      (answer (tryEach statement subject (List.range' index rest.length) s)) := by
  induction rest generalizing index s with
  | nil => exact rfl
  | cons clause rest ih =>
    have hclause : statement.clauses[index]? = some clause := by
      rw [← List.head?_drop, hrest, List.head?_cons]
    have htail : statement.clauses.drop (index + 1) = rest := by
      rw [← List.drop_drop, hrest, List.drop_one, List.tail_cons]
    have hroot : Seen subject base .root subject subject := ⟨.root subject, .same subject⟩
    have halike : Alike _ _ _ (trial subject index clause s.cleared) (trial subject 0 clause base) :=
      (Beside.correspondence subject base).matchClause clause index 0 hroot _ _ hs
    have hrun : tryClause statement subject index s = trial subject index clause s.cleared :=
      tryClause_eq hclause subject s
    rw [List.length_cons, List.range'_succ, tryEach]
    cases hwhole : trial subject index clause s.cleared with
    | error e u =>
      rw [hwhole] at halike
      obtain ⟨v, halone, -⟩ := halike.of_error
      rw [bind_of_error (hrun.trans hwhole)]
      exact .here (halone ▸ .fails e)
    | ok outcome u =>
      rw [hwhole] at halike
      obtain ⟨outcome', v, halone, huv, houtcome⟩ := halike.of_ok
      rw [bind_of_ok (hrun.trans hwhole)]
      cases houtcome with
      | won hrelated => exact .here (halone ▸ .wins hrelated)
      | lost =>
        have hlevel :=
          (Level.evolution.tryClause statement subject index s).rel_of_ok (hrun.trans hwhole)
        -- The next clause is compared with the matcher that has seen nothing, not with the one that
        -- tried this clause.
        refine .later (by rw [halone]; rfl) (ih htail ?_)
        exact {
          left := huv.left.moved .empty u.depth
          right := hs.right
          depth := hlevel.depth.trans hs.depth
          maxDepth := hlevel.maxDepth.trans hs.maxDepth
          bindings := hs.bindings }

end Matcher

namespace Engine

variable (engine : Engine) (host : Host) (maxDepth : Option Nat) (subject : Value)

theorem resultOf_eq (statement : Statement) : engine.resultOf host maxDepth statement subject =
    Matcher.answer (Matcher.tryEach statement subject (List.range statement.clauses.length)
      (.ofHost host engine.kinds maxDepth)) := by
  unfold resultOf run Matcher.runInOrder
  cases hrun : Matcher.tryEach statement subject (List.range statement.clauses.length)
      (.ofHost host engine.kinds maxDepth) with
  | ok outcome t =>
    rw [Matcher.bind_of_ok hrun]
    rfl
  | error e t =>
    rw [Matcher.bind_of_error hrun]
    rfl

/-- A statement with one clause tries this clause with the new matcher. -/
theorem resultOf_only (statement : Statement) (clause : Clause) :
    engine.resultOf host maxDepth (statement.only clause) subject =
      Matcher.answer (Matcher.trial subject 0 clause (.ofHost host engine.kinds maxDepth)) := by
  have hrun : Matcher.tryClause (statement.only clause) subject 0
      (.ofHost host engine.kinds maxDepth) =
        Matcher.trial subject 0 clause (.ofHost host engine.kinds maxDepth) :=
    Matcher.tryClause_eq rfl subject _
  rw [resultOf_eq]
  change Matcher.answer (Matcher.tryEach (statement.only clause) subject [0] _) = _
  rw [Matcher.tryEach]
  cases htrial : Matcher.trial subject 0 clause (.ofHost host engine.kinds maxDepth) with
  | ok outcome t =>
    rw [Matcher.bind_of_ok (hrun.trans htrial)]
    cases outcome <;> rfl
  | error e t => rw [Matcher.bind_of_error (hrun.trans htrial)]

/-- **First match.** What the clauses before it left in memory, in the bindings or in the depth never
    changes what a clause does: the first clause that alone wins or fails decides the statement. -/
theorem result_firstMatch (statement : Statement) :
    FirstDecides host.nextIdentity 0
      (fun clause => engine.resultOf host maxDepth (statement.only clause) subject) statement.clauses
      (engine.resultOf host maxDepth statement subject) := by
  have hfresh := Matcher.Truthful.of_fresh subject host engine.kinds maxDepth
  have hbeside : Matcher.Beside subject (.ofHost host engine.kinds maxDepth)
      (Matcher.ofHost host engine.kinds maxDepth).cleared (.ofHost host engine.kinds maxDepth) :=
    ⟨hfresh, hfresh, rfl, rfl, .nil⟩
  simp only [resultOf_only, resultOf_eq engine host maxDepth subject statement,
    List.range_eq_range']
  exact Matcher.tryEach_firstMatch rfl hbeside

end Engine

end StructuralMatch

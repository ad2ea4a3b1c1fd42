import StructuralMatch.Pattern.Basic
import StructuralMatch.View

/-!
# `Plan.KeyTree` — choosing clauses by the keys of a mapping

A mapping pattern with literal keys stands for a row of tests: the size first, unless a rest name takes
what is left over, and then one test per key. `KeyTree.ofRows` turns rows into a decision tree that asks
the tests of the first row, then of the second, and so on. On every branch it carries what the answers
have established, so that no test is asked whose outcome is known.

## Contents

* `KeyTest`, `KeyTest.holds`, `Pattern.keyTests?`
* `KeyTree`, `KeyTree.testCount`, `KeyTree.candidates`
* `KeyFacts`, `KeyFacts.decide?`, `KeyFacts.assume`
* `KeyTree.ofRows`
-/

namespace StructuralMatch

/-! ## Tests -/

/-- A test on a mapping view. -/
inductive KeyTest where
  | hasKey (key : MapKey)
  | sizeIs (size : Nat)
deriving DecidableEq, Repr

/-- Whether a view passes a test. -/
def KeyTest.holds {V : Type} (view : MappingView V) : KeyTest → Bool
  | .hasKey key => view.containsKey key
  | .sizeIs size => view.size = size

/-- The literal of a mapping key. -/
def MappingKey.literal? : MappingKey → Option Literal
  | .literal value => some value
  | .computed _ => none

/-- The tests of a mapping pattern whose keys are all literals. -/
def Pattern.keyTests? : Pattern → Option (List KeyTest)
  | .mapping entries rest => do
    let literals ← entries.mapM (·.1.literal?)
    let size := if rest.isNone then [KeyTest.sizeIs entries.length] else []
    return size ++ literals.map fun literal => .hasKey literal.mapKey
  | _ => none

/-! ## Trees -/

/-- A decision tree on key tests. -/
inductive KeyTree where
  /-- Ask a test and go on by its outcome. -/
  | ask (question : KeyTest) (pass fail : KeyTree)
  /-- Every test of the clause holds here: try it, and go on if it fails. -/
  | candidate (clause : Nat) (next : KeyTree)
  | exhausted
deriving DecidableEq, Repr, Inhabited

namespace KeyTree

/-- The number of tests in a tree. -/
def testCount : KeyTree → Nat
  | .ask _ pass fail => 1 + pass.testCount + fail.testCount
  | .candidate _ next => next.testCount
  | .exhausted => 0

/-- The clauses that a tree offers for given outcomes of the tests, in order. -/
def candidates (holds : KeyTest → Bool) : KeyTree → List Nat
  | .ask question pass fail =>
    if holds question then pass.candidates holds else fail.candidates holds
  | .candidate clause next => clause :: next.candidates holds
  | .exhausted => []

end KeyTree

/-! ## Facts -/

/-- What the answers on a branch have established about the view. -/
structure KeyFacts where
  present : List MapKey
  absent : List MapKey
  size : Option Nat
  otherSizes : List Nat
deriving Repr

namespace KeyFacts

/-- Nothing is known. -/
def none : KeyFacts := ⟨[], [], .none, []⟩

/-- The outcome of a test, where it is known. Each present key has an entry of its own, so that a size
below their number is ruled out. -/
def decide? (facts : KeyFacts) : KeyTest → Option Bool
  | .hasKey key =>
    if key ∈ facts.present then some true
    else if key ∈ facts.absent then some false
    else .none
  | .sizeIs n =>
    match facts.size with
    | some size => some (size = n)
    | .none => if n ∈ facts.otherSizes ∨ n < facts.present.length then some false else .none

/-- The facts after a test whose outcome was not known before. -/
def assume (facts : KeyFacts) : KeyTest → Bool → KeyFacts
  | .hasKey key, true => { facts with present := key :: facts.present }
  | .hasKey key, false => { facts with absent := key :: facts.absent }
  | .sizeIs n, true => { facts with size := some n }
  | .sizeIs n, false => { facts with otherSizes := n :: facts.otherSizes }

end KeyFacts

namespace KeyTree

/-- The tree that asks the tests of one row that are not known yet, offers the clause where all of them
hold, and goes on with `next` there and wherever one of them fails. -/
def ofRow (clause : Nat) (next : KeyFacts → KeyTree) : List KeyTest → KeyFacts → KeyTree
  | [], facts => .candidate clause (next facts)
  | test :: rest, facts =>
    if (test :: rest).any fun test => facts.decide? test = some false then next facts
    else if facts.decide? test = some true then ofRow clause next rest facts
    else .ask test (ofRow clause next rest (facts.assume test true)) (next (facts.assume test false))

/-- The tree of some rows below given facts. -/
def ofRowsUnder : List (Nat × List KeyTest) → KeyFacts → KeyTree
  | [], _ => .exhausted
  | (clause, tests) :: rows, facts => ofRow clause (ofRowsUnder rows) tests facts

/-- The tree that offers the clauses of the rows whose tests all hold, in row order. -/
def ofRows (rows : List (Nat × List KeyTest)) : KeyTree := ofRowsUnder rows .none

end KeyTree

end StructuralMatch

import StructuralMatch.Host.Answers
import StructuralMatch.View

/-!
# `Host.Question` — putting questions to the host

A question is an event and the answer that a host gives to it. Asking writes the event down first, also
where the answer turns out to be an error.

## Contents

* `Question`, `HostM`, `Question.ask`
* the questions `isInstance`, `matchArgs`, `fetch`, `components`, `elements`, `entries`, `mapping`,
  `equals`, `value` and `guard`
* `Host.newList`, `Host.newDict`
-/

namespace StructuralMatch

/-- Something to ask the host. -/
structure Question (α : Type) where
  event : Event
  answer : Host → Except HostError α

/-- A computation that asks the host. What was written down before an error stays written. -/
abbrev HostM := EStateM HostError Host

namespace Question

/-- Writes the question down and gives the answer. -/
def ask {α : Type} (question : Question α) : HostM α := fun host =>
  let host := host.record question.event
  match question.answer host with
  | .ok a => .ok a host
  | .error e => .error e host

/-- Is the value an instance of the class? -/
def isInstance (value : Value) (target : TypeId) : Question Bool where
  event := .isInstance value.type target
  answer host := .ok (host.isInstanceOf value target)

/-- Which attributes do the positional sub-patterns of the class stand for? -/
def matchArgs (type : TypeId) : Question (List Name) where
  event := .matchArgs type
  answer host := .ok (host.types.matchArgs type)

/-- What is the attribute of the value, if it has it? -/
def fetch (value : Value) (name : Name) : Question (Option Value) where
  event := .getAttribute value.type name
  answer host := host.attributeOf value name

/-- Which components does the value have? -/
def components (value : Value) : Question (List Value) where
  event := .deconstruct value.type
  answer host := host.componentsOf value

/-- Which elements does the value have? -/
def elements (value : Value) : Question (List Value) where
  event := .sequenceView value.type
  answer host := host.elementsOf value

/-- Which entries does the value have? -/
def entries (value : Value) : Question (List (Value × Value)) where
  event := .mappingEntries value.type
  answer host := host.entriesOf value

/-- What is the mapping view of the value? -/
def mapping (value : Value) : Question (MappingView Value) where
  event := .mappingEntries value.type
  answer host := (host.entriesOf value).map (.ofEntries host.mapKey)

/-- Are the two values equal? -/
def equals (a b : Value) : Question Bool where
  event := .equals
  answer _ := .ok (a.looseEq b)

/-- What is the value of the expression? -/
def value (expr : ExprRef) : Question Value where
  event := .evalValue expr
  answer host := host.valueOf expr

/-- Does the guard hold under the bindings? -/
def guard (guard : GuardRef) (bindings : Bindings Value) : Question Bool where
  event := .guard guard
  answer host := host.guardHolds guard bindings

end Question

namespace Host

/-- A new list of some items. -/
def newList (items : List Value) (host : Host) : Value × Host :=
  let (identity, host) := host.freshIdentity
  (.list identity items, host)

/-- A new dict of some entries. -/
def newDict (entries : List (Value × Value)) (host : Host) : Value × Host :=
  let (identity, host) := host.freshIdentity
  (.dict identity entries, host)

end Host

end StructuralMatch

import StructuralMatch.Bindings
import StructuralMatch.Class.Registry
import StructuralMatch.Value.Basic

/-!
# `Host.Basic` — the world that patterns are matched in

The host owns the names, the classes, the values of expressions and the guards. It writes down every
question that is put to it and that could have an effect, in a log that can be drained. New values take
their identities from a counter.

## Contents

* `Event`, `Guard`
* `HostError` and its `message`
* `Host`, `Host.initial`, `Host.typeNamed?`
* the updates `intern`, `defineClass`, `defineClassUnchecked`, `addValue`, `setValue`, `addGuard`,
  `freshIdentity`, `record` and `drainLog`
-/

namespace StructuralMatch

/-- A question that was put to the host. -/
inductive Event where
  | isInstance (type target : TypeId)
  | matchArgs (type : TypeId)
  | getAttribute (type : TypeId) (name : Name)
  | deconstruct (type : TypeId)
  | sequenceView (type : TypeId)
  | mappingEntries (type : TypeId)
  | equals
  | evalValue (expr : ExprRef)
  | guard (guard : GuardRef)
deriving DecidableEq, Repr

/-- A condition on bindings. -/
inductive Guard where
  | const (value : Bool)
  /-- The integer bound to a name is above a bound. -/
  | intAbove (name : Name) (bound : Int)
  /-- A name is bound to a truthy value. -/
  | bound (name : Name)
  /-- Fails with a message of its own. -/
  | raise (message : String)
deriving DecidableEq, Repr, Inhabited

/-- Why the host could not answer. Names are resolved at that moment. -/
inductive HostError where
  | cannotDeconstruct (typeName : String)
  | noSequenceView (typeName : String)
  | noMappingView (typeName : String)
  | attributeRaised (typeName attributeName : String)
  | undefinedValue (expr : ExprRef)
  | undefinedGuard (guard : GuardRef)
  | guardNeedsInt (name : String)
  | raised (message : String)
deriving DecidableEq, Repr

/-- The wording of an error. -/
def HostError.message : HostError → String
  | .cannotDeconstruct typeName => s!"deconstruct not supported by {typeName}"
  | .noSequenceView typeName => s!"sequence view not supported by {typeName}"
  | .noMappingView typeName => s!"mapping view not supported by {typeName}"
  | .attributeRaised typeName attributeName => s!"{typeName}.{attributeName} raised"
  | .undefinedValue expr => s!"undefined value {expr.label}"
  | .undefinedGuard guard => s!"undefined guard {guard.label}"
  | .guardNeedsInt name => s!"guard needs an int bound to `{name}`"
  | .raised message => message

/-- The state of a host. -/
structure Host where
  names : Interner
  types : Registry
  /-- The current value of each expression. -/
  values : List Value
  guards : List Guard
  /-- The questions that were put to the host, in order. -/
  log : Array Event
  /-- The identity of the next allocation. -/
  nextIdentity : Identity
deriving Inhabited

namespace Host

/-- A host that knows the built-in classes only. -/
def initial : Host :=
  let (types, names) := Registry.initial .initial
  { names, types, values := [], guards := [], log := #[], nextIdentity := 0 }

/-- Interns a text. -/
def intern (host : Host) (text : String) : Name × Host :=
  let (name, names) := host.names.intern text
  (name, { host with names })

/-- The class of a given name. -/
def typeNamed? (host : Host) (text : String) : Option TypeId :=
  (host.names.get? text).bind host.types.lookup?

/-- Puts a registry in place of the current one. -/
def withTypes (host : Host) (result : Except RegistryError (TypeId × Registry)) :
    Except RegistryError (TypeId × Host) :=
  result.map fun (type, types) => (type, { host with types })

/-- Registers a class whose kind has no conflict. -/
def defineClass (host : Host) (definition : ClassDef) : Except RegistryError (TypeId × Host) :=
  host.withTypes (host.types.register definition)

/-- Registers a class whatever its kind. -/
def defineClassUnchecked (host : Host) (definition : ClassDef) :
    Except RegistryError (TypeId × Host) :=
  host.withTypes (host.types.registerUnchecked definition)

/-- A new expression with a given value. -/
def addValue (host : Host) (value : Value) : ExprRef × Host :=
  (⟨host.values.length⟩, { host with values := host.values ++ [value] })

/-- Gives an expression another value; an unknown expression stays unknown. -/
def setValue (host : Host) (expr : ExprRef) (value : Value) : Host :=
  { host with values := host.values.set expr.index value }

/-- A new guard. -/
def addGuard (host : Host) (guard : Guard) : GuardRef × Host :=
  (⟨host.guards.length⟩, { host with guards := host.guards ++ [guard] })

/-- An identity that no value has yet. -/
def freshIdentity (host : Host) : Identity × Host :=
  (host.nextIdentity, { host with nextIdentity := host.nextIdentity + 1 })

/-- Writes a question down. -/
def record (host : Host) (event : Event) : Host := { host with log := host.log.push event }

/-- The questions so far, and the host with an empty log. -/
def drainLog (host : Host) : Array Event × Host := (host.log, { host with log := #[] })

end Host

end StructuralMatch

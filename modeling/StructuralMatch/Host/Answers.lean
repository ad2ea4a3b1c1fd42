import StructuralMatch.Host.Basic
import StructuralMatch.Pattern.Basic
import StructuralMatch.Value.Equality

/-!
# `Host.Answers` — what the host says when it is asked

Answers depend on the host's names, classes, values and guards only, never on its log.

## Contents

* `Value.type`, `Host.typeName`, `Host.literal`
* `Value.mapKey`, `Host.mapKey`
* the answers `isInstanceOf`, `attributeOf`, `componentsOf`, `elementsOf`, `entriesOf`, `valueOf` and
  `guardHolds`
-/

namespace StructuralMatch

/-- The type of a value. -/
def Value.type : Value → TypeId
  | .none => .noneType
  | .bool _ => .bool
  | .int _ => .int
  | .float _ => .float
  | .str .. => .str
  | .list .. => .list
  | .tuple .. => .tuple
  | .dict .. => .dict
  | .object _ type _ _ => type

namespace Host

/-- The name of a class in diagnostics. -/
def typeName (host : Host) (type : TypeId) : String :=
  match host.types.get? type with
  | some definition => host.names.lookup definition.name
  | none => "<unknown>"

/-- The value of a constant. A string is given the identity of the next allocation without taking it, as
no one keeps the value. -/
def literal (host : Host) : Literal → Value
  | .none => .none
  | .bool b => .bool b
  | .int n => .int n
  | .float x => .float x
  | .str name => .str host.nextIdentity (host.names.lookup name)

end Host

mutual
/-- The hash identity of a value under a table of names; lists and dicts have none, and neither has a
tuple that holds one. -/
def Value.mapKey (names : Interner) : Value → Option MapKey
  | .none => some .none
  | .bool b => some (.ofBool b)
  | .int n => some (.int n)
  | .float x => some (.ofFloat x)
  | .str _ content =>
    match names.get? content with
    | some name => some (.str name)
    | none => some (.text content)
  | .list .. => none
  | .tuple _ items => (mapKeys names items).map .tuple
  | .dict .. => none
  | .object identity _ _ _ => some (.object identity)

/-- The hash identities of some values, if each has one. -/
def mapKeys (names : Interner) : List Value → Option (List MapKey)
  | [] => some []
  | item :: rest =>
    match Value.mapKey names item, mapKeys names rest with
    | some key, some keys => some (key :: keys)
    | _, _ => none
end

namespace Host

/-- The hash identity of a value. -/
def mapKey (host : Host) (value : Value) : Option MapKey := value.mapKey host.names

/-! ## Answers -/

/-- Whether a value is an instance of a class. -/
def isInstanceOf (host : Host) (value : Value) (target : TypeId) : Bool :=
  host.types.isSubtype value.type target

/-- The attribute of a value, which only objects have. -/
def attributeOf (host : Host) (value : Value) (name : Name) : Except HostError (Option Value) :=
  if host.types.raises value.type name then
    .error (.attributeRaised (host.typeName value.type) (host.names.lookup name))
  else .ok (value.attribute? name)

/-- The components of an object. -/
def componentsOf (host : Host) : Value → Except HostError (List Value)
  | .object _ _ _ components => .ok components
  | value => .error (.cannotDeconstruct (host.typeName value.type))

/-- The elements of a list or tuple. -/
def elementsOf (host : Host) (value : Value) : Except HostError (List Value) :=
  match value.asItems? with
  | some items => .ok items
  | none => .error (.noSequenceView (host.typeName value.type))

/-- The entries of a dict. -/
def entriesOf (host : Host) (value : Value) : Except HostError (List (Value × Value)) :=
  match value.asEntries? with
  | some entries => .ok entries
  | none => .error (.noMappingView (host.typeName value.type))

/-- The current value of an expression. -/
def valueOf (host : Host) (expr : ExprRef) : Except HostError Value :=
  match host.values[expr.index]? with
  | some value => .ok value
  | none => .error (.undefinedValue expr)

/-- Whether a condition holds under some bindings. -/
def conditionHolds (host : Host) (bindings : Bindings Value) : Guard → Except HostError Bool
  | .const b => .ok b
  | .intAbove name bound =>
    match (bindings.get? name).bind Value.asInt? with
    | some n => .ok (bound < n)
    | none => .error (.guardNeedsInt (host.names.lookup name))
  | .bound name => .ok ((bindings.get? name).any Value.truthy)
  | .raise message => .error (.raised message)

/-- Whether a guard holds under some bindings. -/
def guardHolds (host : Host) (guard : GuardRef) (bindings : Bindings Value) : Except HostError Bool :=
  match host.guards[guard.index]? with
  | some condition => host.conditionHolds bindings condition
  | none => .error (.undefinedGuard guard)

end Host

end StructuralMatch

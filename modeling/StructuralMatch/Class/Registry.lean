import StructuralMatch.Class.Basic

/-!
# `Class.Registry` — the classes of a host

Classes are numbered in the order of their registration, after the built-in ones. Every class but
`object` has a base, so that a chain of bases leads from each class up to `object`. Declarations are
inherited along that chain: the nearest class that makes one counts.

## Contents

* `Registry`, `Registry.initial`, `get?`, `lookup?`, `declaredKind`
* `RegistryError`, `Registry.registerUnchecked`, `Registry.register`
* `Registry.chain` and what is read off it: `matchArgs`, `raises`, `isSubtype`
-/

namespace StructuralMatch

/-- The registered classes, each at the position its number denotes. -/
structure Registry where
  classes : List ClassEntry
deriving DecidableEq, Repr, Inhabited

/-- Why a class could not be registered. -/
inductive RegistryError where
  | unknownBase (base : TypeId)
  | invalidKind (name : Name) (conflict : KindConflict)
  | duplicate (name : Name)
deriving DecidableEq, Repr

namespace RegistryError

/-- The wording of an error. -/
def message : RegistryError → String
  | .unknownBase base => s!"unknown base class {base.label}"
  | .invalidKind name _ => s!"class {name.label} declares an invalid match kind"
  | .duplicate name => s!"class {name.label} is already registered"

/-- The conflict behind an error. -/
def conflict? : RegistryError → Option KindConflict
  | .invalidKind _ conflict => some conflict
  | _ => none

end RegistryError

namespace Registry

/-! ## Look-up -/

/-- The number of classes. -/
def size (registry : Registry) : Nat := registry.classes.length

/-- The entry of a class. -/
def entryOf (registry : Registry) (type : TypeId) : Option ClassEntry := registry.classes[type.index]?

/-- The definition of a class. -/
def get? (registry : Registry) (type : TypeId) : Option ClassDef :=
  (registry.entryOf type).map (·.definition)

/-- The class of a given name. -/
def lookup? (registry : Registry) (name : Name) : Option TypeId :=
  (registry.classes.findIdx? fun entry => entry.definition.name = name).map TypeId.mk

/-- The kind that a class announces or inherits. -/
def declaredKind (registry : Registry) (type : TypeId) : Option KindFlags :=
  (registry.entryOf type).bind (·.kind)

/-! ## Registration -/

/-- The registry of the built-in classes, whose names are interned in the order of their numbers. -/
def initial (names : Interner) : Registry × Interner :=
  let (interned, names) := names.internAll (builtinClasses.map (·.1))
  let entry (name : Name) (builtin : String × Option TypeId × Option KindFlags) : ClassEntry :=
    { definition := { name, base := builtin.2.1, kind := builtin.2.2 }, kind := builtin.2.2 }
  (⟨List.zipWith entry interned builtinClasses⟩, names)

/-- Registers a class whatever the kind it announces. Its base must be known and its name new. -/
def registerUnchecked (registry : Registry) (definition : ClassDef) :
    Except RegistryError (TypeId × Registry) :=
  let base := definition.base.getD .object
  match registry.entryOf base with
  | none => .error (.unknownBase base)
  | some baseEntry =>
    if (registry.lookup? definition.name).isSome then .error (.duplicate definition.name)
    else
      let entry : ClassEntry :=
        { definition := { definition with base := some base }
          kind := definition.kind.or baseEntry.kind }
      .ok (⟨registry.size⟩, ⟨registry.classes ++ [entry]⟩)

/-- Registers a class unless the kind it announces has a conflict. -/
def register (registry : Registry) (definition : ClassDef) :
    Except RegistryError (TypeId × Registry) :=
  match definition.kind.map MatchKind.ofFlags with
  | some (.error conflict) => .error (.invalidKind definition.name conflict)
  | _ => registry.registerUnchecked definition

/-! ## Inheritance -/

/-- A class and its bases, up to a given number of them. -/
def chainUpTo (registry : Registry) (type : TypeId) : Nat → List TypeId
  | 0 => [type]
  | steps + 1 =>
    type :: ((registry.get? type).bind (·.base)).elim [] fun base => registry.chainUpTo base steps

/-- A class and its bases, the nearest first. No chain has more bases than there are classes. -/
def chain (registry : Registry) (type : TypeId) : List TypeId :=
  registry.chainUpTo type registry.size

/-- The attributes that positional sub-patterns stand for: those of the nearest class that names any. -/
def matchArgs (registry : Registry) (type : TypeId) : List Name :=
  let declared := (registry.chain type).map fun type => ((registry.get? type).map (·.matchArgs)).getD []
  (declared.find? (!·.isEmpty)).getD []

/-- Whether an attribute of a class's instances cannot be read. -/
def raises (registry : Registry) (type : TypeId) (name : Name) : Bool :=
  (registry.chain type).any fun type =>
    (registry.get? type).any fun definition => name ∈ definition.raisingAttributes

/-- Whether a class is another one or extends it. -/
def isSubtype (registry : Registry) (type ancestor : TypeId) : Bool :=
  ancestor ∈ registry.chain type

end Registry

end StructuralMatch

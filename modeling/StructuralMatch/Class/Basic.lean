import StructuralMatch.Handle
import StructuralMatch.Kind
import StructuralMatch.Name

/-!
# `Class.Basic` — class definitions

A class has a name, a base and a few declarations of its own. What it leaves out it takes from its base.

## Contents

* `ClassDef`, `ClassEntry`
* the built-in types `TypeId.object` to `TypeId.dict`, and `builtinClasses`
-/

namespace StructuralMatch

/-- A class as it is defined. -/
structure ClassDef where
  name : Name
  /-- The class that it extends; a new class without one extends `object`. -/
  base : Option TypeId := none
  /-- The kind that it announces; without one it has the kind of its base. -/
  kind : Option KindFlags := none
  /-- The attributes that positional sub-patterns stand for. -/
  matchArgs : List Name := []
  /-- The attributes that cannot be read. -/
  raisingAttributes : List Name := []
deriving DecidableEq, Repr, Inhabited

/-- A registered class with the kind that it has, its own or an inherited one. -/
structure ClassEntry where
  definition : ClassDef
  kind : Option KindFlags
deriving DecidableEq, Repr, Inhabited

namespace TypeId

/-- The class of all values. -/
def object : TypeId := ⟨0⟩

/-- The class of the absent value. -/
def noneType : TypeId := ⟨1⟩

/-- The class of truth values, which extends `int`. -/
def bool : TypeId := ⟨2⟩

/-- The class of integers. -/
def int : TypeId := ⟨3⟩

/-- The class of double precision numbers. -/
def float : TypeId := ⟨4⟩

/-- The class of strings. -/
def str : TypeId := ⟨5⟩

/-- The class of lists. -/
def list : TypeId := ⟨6⟩

/-- The class of tuples. -/
def tuple : TypeId := ⟨7⟩

/-- The class of dicts. -/
def dict : TypeId := ⟨8⟩

end TypeId

/-- The built-in classes in the order of their numbers, each with its base and the kind it announces. -/
def builtinClasses : List (String × Option TypeId × Option KindFlags) := [
  ("object", none, none),
  ("NoneType", some .object, none),
  ("bool", some .int, some .selfValue),
  ("int", some .object, some .selfValue),
  ("float", some .object, some .selfValue),
  ("str", some .object, some .selfValue),
  ("list", some .object, some (.sequence ||| .selfValue)),
  ("tuple", some .object, some (.sequence ||| .selfValue)),
  ("dict", some .object, some (.mapping ||| .selfValue))]

end StructuralMatch

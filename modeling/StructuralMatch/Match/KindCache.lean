import StructuralMatch.Class.Registry

/-!
# `Match.KindCache` — the kinds that have been resolved

A type announces its kind once and for all, so that the decoded kind can be kept. A type that was asked
for before it announced anything keeps the kind of a type that announces nothing.

## Contents

* `ResolvedKind`, `ResolvedKind.ofFlags`
* `KindCache`, `KindCache.resolve`
-/

namespace StructuralMatch

/-- A kind, and whether the flags it was decoded from had no conflict. -/
structure ResolvedKind where
  kind : MatchKind
  conforming : Bool
deriving DecidableEq, Repr, Inhabited

/-- The kind that a type's flags stand for, where a conflict is settled by precedence. -/
def ResolvedKind.ofFlags : Option KindFlags → ResolvedKind
  | none => ⟨.undeclared, true⟩
  | some flags =>
    match MatchKind.ofFlags flags with
    | .ok kind => ⟨kind, true⟩
    | .error _ => ⟨.lenient flags, false⟩

/-- The kinds resolved so far. -/
structure KindCache where
  known : List (TypeId × ResolvedKind)
deriving DecidableEq, Repr

namespace KindCache

/-- Nothing is known. -/
def empty : KindCache := ⟨[]⟩

instance : Inhabited KindCache := ⟨empty⟩

/-- The number of types whose kind is known. -/
def size (cache : KindCache) : Nat := cache.known.length

/-- Whether no kind is known. -/
def isEmpty (cache : KindCache) : Bool := cache.known.isEmpty

/-- The kind that is known for a type. -/
def get? (cache : KindCache) (type : TypeId) : Option ResolvedKind := cache.known.lookup type

/-- The kind of a type, which is known from then on. -/
def resolve (cache : KindCache) (types : Registry) (type : TypeId) : ResolvedKind × KindCache :=
  match cache.get? type with
  | some resolved => (resolved, cache)
  | none =>
    let resolved := ResolvedKind.ofFlags (types.declaredKind type)
    (resolved, ⟨(type, resolved) :: cache.known⟩)

end KindCache

end StructuralMatch

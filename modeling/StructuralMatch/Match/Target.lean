import StructuralMatch.Match.Keywords
import StructuralMatch.Match.Matcher
import StructuralMatch.Pattern.Basic

/-!
# `Match.Target` — the parts of a value that sub-patterns are matched with

Before its sub-patterns are tried, a pattern looks at the structure of the value: its length, its keys,
its components or its attributes. Either the structure rules a match out, or there is one target for
every sub-pattern, in order.

## Contents

* `Part`, `Target`
* `sequenceTargets`, `mappingParts`, `componentParts`, `attributeParts`
* `ClassTargets`, `classTargets`
-/

namespace StructuralMatch

/-- A part of a value, one step away from it. -/
structure Part where
  step : PathStep
  value : Value
deriving Repr, Inhabited

/-- What a sub-pattern is matched with. -/
inductive Target where
  | part (part : Part)
  /-- A list, yet to be made, of the elements from a position on. -/
  | slice (start : Nat) (items : List Value)
deriving Repr, Inhabited

namespace Matcher

/-! ## Sequences -/

/-- Elements as targets, where the first one has the given position. -/
def elementTargets (position : Nat) : List Value → List Target
  | [] => []
  | value :: rest => .part ⟨.index position, value⟩ :: elementTargets (position + 1) rest

/-- The targets of `count` item patterns on the elements of a sequence, if their number fits. The item at
the star is matched with all the elements that the other items leave. -/
def splitElements (count : Nat) (elements : List Value) :
    Option Nat → MatchM (Option (List Target))
  | none =>
    return if elements.length = count then some (elementTargets 0 elements) else none
  | some star => do
    if star < count ∧ count ≤ elements.length + 1 then
      let width := elements.length + 1 - count
      let (before, rest) ← cutAt elements star
      let (middle, after) ← cutAt rest width
      return some (elementTargets 0 before ++ .slice star middle ::
        elementTargets (star + width) after)
    else return none

/-- The targets of the items of a sequence pattern. -/
def sequenceTargets (count : Nat) (star : Option Nat) (value : Value) (path : AccessPath) :
    MatchM (Option (List Target)) := do
  if (← kindOf value).isSequence then
    splitElements count (← observe (.elements path value)) star
  else return none

/-! ## Mappings -/

/-- The hash identity of the key of an entry. -/
def keyIdentity : MappingKey → MatchM MapKey
  | .literal constant => return constant.mapKey
  | .computed expr => do
    let key ← askHost (.value expr)
    match (← get).host.mapKey key with
    | some identity => return identity
    | none => throw (.unhashableKey expr)

/-- The identities of the keys and their values in a view, if it has them all. Keys behind one that it
does not have are not computed. -/
def presentKeys (view : MappingView Value) : List MappingKey → MatchM (Option (List (MapKey × Value)))
  | [] => return some []
  | key :: rest => do
    let identity ← keyIdentity key
    match view.get? identity with
    | none => return none
    | some value => return (← presentKeys view rest).map ((identity, value) :: ·)

/-- Whether a mapping of a given size may match a pattern with `count` entries. -/
def sizeFits (count size : Nat) (rest : Option Name) : Bool :=
  match rest with
  | none => size = count
  | some _ => count ≤ size

/-- The parts for the entries of a mapping pattern, and the entries of the mapping that they leave. -/
def mappingParts (keys : List MappingKey) (rest : Option Name) (value : Value)
    (path : AccessPath) : MatchM (Option (List Part × List (Value × Value))) := do
  if (← kindOf value).isMapping then
    let view ← observe (.mapping path value)
    if sizeFits keys.length view.size rest then
      return (← presentKeys view keys).map fun found =>
        (found.map fun slot => ⟨.key slot.1, slot.2⟩, view.remaining (found.map (·.1)))
    else return none
  else return none

/-! ## Components -/

/-- Components as parts, where the first one has the given position. -/
def componentPartsFrom (position : Nat) : List Value → List Part
  | [] => []
  | value :: rest => ⟨.component position, value⟩ :: componentPartsFrom (position + 1) rest

/-- The components at given positions as parts. -/
def componentPartsAt (components : List Value) : List Nat → MatchM (List Part)
  | [] => return []
  | index :: rest => do
    let value ← elementAt components index
    return ⟨.component index, value⟩ :: (← componentPartsAt components rest)

/-- The error of a keyword on a value of a given type whose first components are consumed. -/
def keywordError (type : TypeId) (consumed : Nat) : KeywordError → MatchError
  | .unknown name => .unknownKeyword name type
  | .belowMinimum name index => .keywordRebindsPositional name index consumed
  | .duplicate name => .keywordCollision name

/-- The first keyword whose position is not below the number of components. -/
def outOfRange? (length : Nat) (slots : List (Name × Nat)) : Option MatchError :=
  (slots.find? fun slot => length ≤ slot.2).map fun slot =>
    .componentOutOfRange slot.1 slot.2 length

/-- The positions that keywords stand for, behind the components that are consumed by position. The
declared names are looked at only if there are keywords. -/
def keywordSlots (keywords : List Name) (consumed length : Nat) (value : Value)
    (path : AccessPath) : MatchM (List Nat) := do
  if keywords.isEmpty then return []
  let declared ← observe (.declared path value)
  match resolveKeywords keywords declared consumed with
  | .error e => throw (keywordError value.type consumed e)
  | .ok slots =>
    match outOfRange? length (keywords.zip slots) with
    | some e => throw e
    | none => return slots

/-- The components for positional sub-patterns and for keywords. -/
def componentParts (positional : Nat) (keywords : List Name) (value : Value)
    (path : AccessPath) : MatchM (Option (List Part × List Part)) := do
  let components ← observe (.components path value)
  if components.length < positional then return none
  let slots ← keywordSlots keywords positional components.length value path
  let (first, _) ← cutAt components positional
  return some (componentPartsFrom 0 first, ← componentPartsAt components slots)

/-! ## Attributes -/

/-- The attributes of the given names as parts, if the value has them all. Names behind one that it does
not have are not fetched. -/
def attributePartsOf (value : Value) (path : AccessPath) : List Name → MatchM (Option (List Part))
  | [] => return some []
  | name :: rest => do
    match ← observe (.attribute? path value name) with
    | none => return none
    | some found =>
      return (← attributePartsOf value path rest).map (⟨.field name, found⟩ :: ·)

/-- The attributes that positional sub-patterns stand for. The declared names are looked at only if there
are such sub-patterns. -/
def positionalNames (type : TypeId) (positional : Nat) (value : Value) (path : AccessPath) :
    MatchM (List Name) := do
  if positional = 0 then return []
  let declared ← observe (.declared path value)
  if declared.length < positional then
    throw (.tooManyPositional type declared.length positional)
  return (← cutAt declared positional).1

/-- Keywords, none of which may be one of the names before it. -/
def keywordNames (before keywords : List Name) : MatchM (List Name) :=
  match distinctAfter before keywords with
  | .ok names => return names
  | .error name => throw (.keywordCollision name)

/-- The attributes for positional sub-patterns and for keywords. -/
def attributeParts (type : TypeId) (positional : Nat) (keywords : List Name) (value : Value)
    (path : AccessPath) : MatchM (Option (List Part × List Part)) := do
  let names ← positionalNames type positional value path
  let keywords ← keywordNames names keywords
  match ← attributePartsOf value path (names ++ keywords) with
  | none => return none
  | some parts => return some (← cutAt parts positional)

/-! ## Classes -/

/-- What the sub-patterns of a class pattern are matched with. -/
inductive ClassTargets where
  /-- Nothing: the pattern fails. -/
  | none
  /-- The value itself, for the sole positional sub-pattern, and its attributes for the keywords. -/
  | itself
  /-- Parts, for the positional sub-patterns and for the keywords. -/
  | parts (positional keywords : List Part)
deriving Repr, Inhabited

/-- The parts for the sub-patterns, if there are any. -/
def ClassTargets.ofParts : Option (List Part × List Part) → ClassTargets
  | .none => .none
  | some (positional, keywords) => .parts positional keywords

/-- What the sub-patterns are matched with on a value of the class, by the class mode of its type. -/
def classTargets (type : TypeId) (positional : Nat) (keywords : List Name) (value : Value)
    (path : AccessPath) : MatchM ClassTargets := do
  match (← kindOf value).classMode with
  | .closed => return .none
  | .selfValue => return if positional = 1 then .itself else .none
  | .positional => return .ofParts (← componentParts positional keywords value path)
  | .default => return .ofParts (← attributeParts type positional keywords value path)

end Matcher

end StructuralMatch

/-!
# `Kind` — how values of a type may be matched

A kind has two independent axes. Its shape says whether sequence or mapping patterns apply; its class
mode says where a class pattern finds the values for its positional sub-patterns. A type announces its
kind as `KindFlags`. Four pairs of flags exclude each other: `MatchKind.ofFlags` refuses them, and
`MatchKind.lenient` decodes them anyway by a fixed precedence.

## Contents

* `KindFlags` and its five flags
* `Shape`, `ClassMode`, `MatchKind`
* `KindConflict` and its `message`
* `MatchKind.ofFlags`, `MatchKind.lenient`, `MatchKind.toFlags`
-/

namespace StructuralMatch

/-! ## Flags -/

/-- A kind as a type announces it: one bit per flag, where further bits are kept and mean nothing. -/
structure KindFlags where
  bits : UInt8
deriving DecidableEq, Repr, Inhabited

namespace KindFlags

/-- No flag at all. -/
def none : KindFlags := ⟨0⟩

/-- Sequence patterns apply. -/
def sequence : KindFlags := ⟨1⟩

/-- Mapping patterns apply. -/
def mapping : KindFlags := ⟨2⟩

/-- Positional sub-patterns name attributes through the declared attribute names. -/
def default : KindFlags := ⟨4⟩

/-- Positional sub-patterns match the components of the value. -/
def positional : KindFlags := ⟨8⟩

/-- A single positional sub-pattern matches the value itself. -/
def selfValue : KindFlags := ⟨16⟩

/-- The flags of either side. -/
def union (a b : KindFlags) : KindFlags := ⟨a.bits ||| b.bits⟩

instance : OrOp KindFlags := ⟨union⟩

/-- Whether every bit of `required` is set. -/
def contains (flags required : KindFlags) : Bool := flags.bits &&& required.bits = required.bits

end KindFlags

/-! ## Kinds -/

/-- Which structural patterns apply to a value. -/
inductive Shape where
  | none
  | sequence
  | mapping
deriving DecidableEq, Repr, Inhabited

/-- Where a class pattern finds the values for its positional sub-patterns. -/
inductive ClassMode where
  /-- Nowhere: a class pattern with sub-patterns never matches. -/
  | closed
  /-- In the attributes that the type declares. -/
  | default
  /-- In the components of the value. -/
  | positional
  /-- In the value itself, for a single positional sub-pattern. -/
  | selfValue
deriving DecidableEq, Repr, Inhabited

/-- A decoded kind. -/
structure MatchKind where
  shape : Shape
  classMode : ClassMode
deriving DecidableEq, Repr, Inhabited

/-- Two flags that exclude each other. -/
inductive KindConflict where
  | sequenceAndMapping
  | defaultAndPositional
  | defaultAndSelf
  | positionalAndSelf
deriving DecidableEq, Repr, Inhabited

/-- The wording of a conflict. -/
def KindConflict.message : KindConflict → String
  | sequenceAndMapping => "kind declares both SEQUENCE and MAPPING"
  | defaultAndPositional => "kind declares both DEFAULT and POSITIONAL"
  | defaultAndSelf => "kind declares both DEFAULT and SELF"
  | positionalAndSelf => "kind declares both POSITIONAL and SELF"

/-- The flags whose joint presence is the conflict. -/
def KindConflict.flags : KindConflict → KindFlags
  | sequenceAndMapping => .sequence ||| .mapping
  | defaultAndPositional => .default ||| .positional
  | defaultAndSelf => .default ||| .selfValue
  | positionalAndSelf => .positional ||| .selfValue

/-- Every conflict, in the order in which they are looked for. -/
def KindConflict.all : List KindConflict :=
  [.sequenceAndMapping, .defaultAndPositional, .defaultAndSelf, .positionalAndSelf]

namespace MatchKind

/-- The kind of a type that announces nothing. -/
def undeclared : MatchKind := ⟨.none, .default⟩

/-- Decodes flags without looking for conflicts: a sequence wins over a mapping, and components win
over the value itself, which wins over attributes. -/
def lenient (flags : KindFlags) : MatchKind where
  shape :=
    if flags.contains .sequence then .sequence
    else if flags.contains .mapping then .mapping
    else .none
  classMode :=
    if flags.contains .positional then .positional
    else if flags.contains .selfValue then .selfValue
    else if flags.contains .default then .default
    else .closed

/-- Decodes flags, or names the first pair of them that exclude each other. -/
def ofFlags (flags : KindFlags) : Except KindConflict MatchKind :=
  match KindConflict.all.find? (fun conflict => flags.contains conflict.flags) with
  | some conflict => .error conflict
  | none => .ok (lenient flags)

/-- The flags that announce a kind. -/
def toFlags (kind : MatchKind) : KindFlags :=
  let shape : KindFlags :=
    match kind.shape with
    | .none => .none
    | .sequence => .sequence
    | .mapping => .mapping
  let mode : KindFlags :=
    match kind.classMode with
    | .closed => .none
    | .default => .default
    | .positional => .positional
    | .selfValue => .selfValue
  shape ||| mode

/-- Whether sequence patterns apply. -/
def isSequence (kind : MatchKind) : Bool := kind.shape = .sequence

/-- Whether mapping patterns apply. -/
def isMapping (kind : MatchKind) : Bool := kind.shape = .mapping

/-- Encoding a kind and decoding it again gives the kind back. -/
theorem ofFlags_toFlags (kind : MatchKind) : ofFlags kind.toFlags = .ok kind := by
  rcases kind with ⟨shape, mode⟩
  cases shape <;> cases mode <;> rfl

end MatchKind

end StructuralMatch

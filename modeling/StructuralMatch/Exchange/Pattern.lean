import StructuralMatch.Exchange.Compact
import StructuralMatch.Exchange.Document
import StructuralMatch.Pattern.Basic

/-!
# `Exchange.Pattern` — patterns and statements as JSON text

A pattern is an object whose only key names its form; a form without content may be a bare string. Forms
with several parts are records. `toText` writes the text without blanks, and `ofText?` reads any text of
the format back, as long as no more than `nestingLimit` containers stand in each other.

## Contents

* `nestingLimit`
* `Literal.ofJson?`, `MappingKey.ofJson?`, `Pattern.ofJson?`, `Clause.ofJson?`
* `Pattern.ofText?`, `Statement.ofText?`
* `Pattern.toText`, `Statement.toText`
-/

namespace StructuralMatch

open Exchange

/-- How many containers of a text may stand in each other, those that a reader passes over not counted. -/
def Exchange.nestingLimit : Nat := 127

/-! ## Reading

Each reader of a part that can lie deep takes the number of containers that may still be opened. -/

/-- The constant that a value stands for. -/
def Literal.ofJson? : Nat → Json → Option Literal
  | _, .string (some "None") => some .none
  | _ + 1, .object [(some "None", .null)] => some .none
  | _ + 1, .object [(some "Bool", content)] => content.bool?.map .bool
  | _ + 1, .object [(some "Int", content)] => content.word?.map .int
  | _ + 1, .object [(some "Float", content)] => content.size?.map fun bits => .float ⟨UInt64.ofNat bits⟩
  | _ + 1, .object [(some "Str", content)] => content.handle?.map fun index => .str ⟨index⟩
  | _, _ => Option.none

/-- The mapping key that a value stands for. -/
def MappingKey.ofJson? : Nat → Json → Option MappingKey
  | depth + 1, .object [(some "Literal", content)] => (Literal.ofJson? depth content).map .literal
  | _ + 1, .object [(some "Value", content)] => content.handle?.map fun index => .computed ⟨index⟩
  | _, _ => none

mutual
/-- The pattern that a value stands for. -/
def Pattern.ofJson? : Nat → Json → Option Pattern
  | _, .string (some "Wildcard") => some .wildcard
  | depth + 1, .object [(some form, content)] => Pattern.ofForm? depth form content
  | _, _ => none

/-- The pattern of a given form with a given content. -/
def Pattern.ofForm? : Nat → String → Json → Option Pattern
  | _, "Wildcard", .null => some .wildcard
  | _, "Capture", content => content.handle?.map fun index => .capture ⟨index⟩
  | depth, "Literal", content => (Literal.ofJson? depth content).map .literal
  | _, "ValueRef", content => content.handle?.map fun index => .valueRef ⟨index⟩
  | depth + 2, "Sequence", content => do
    let [some items, star] ← content.fields? ["items", "star"] | none
    let items ← items.items? (Pattern.ofJson? depth)
    return .sequence items (← Json.optionalField? Json.size? star)
  | depth + 2, "Mapping", content => do
    let [some entries, rest] ← content.fields? ["entries", "rest"] | none
    let entries ← entries.items? (Pattern.entryOfJson? depth)
    let rest ← Json.optionalField? Json.handle? rest
    return .mapping entries (rest.map Name.mk)
  | depth + 2, "Class", content => do
    let [some type, some positional, some keywords] ←
      content.fields? ["cls", "positional", "keywords"] | none
    let type ← type.handle?
    let positional ← positional.items? (Pattern.ofJson? depth)
    return .ofClass ⟨type⟩ positional (← keywords.items? (Pattern.keywordOfJson? depth))
  | depth + 1, "As", content => do
    let [some pattern, some name] ← content.fields? ["pattern", "name"] | none
    return .named (← Pattern.ofJson? depth pattern) ⟨← name.handle?⟩
  | depth + 1, "Or", content => (content.items? (Pattern.ofJson? depth)).map .anyOf
  | _, _, _ => none

/-- The entry of a mapping pattern that a value stands for. -/
def Pattern.entryOfJson? : Nat → Json → Option (MappingKey × Pattern)
  | depth + 1, json => do
    let [some key, some pattern] ← json.fields? ["key", "pattern"] | none
    return (← MappingKey.ofJson? depth key, ← Pattern.ofJson? depth pattern)
  | 0, _ => none

/-- The keyword of a class pattern that a value stands for. -/
def Pattern.keywordOfJson? : Nat → Json → Option (Name × Pattern)
  | depth + 1, json => do
    let [some name, some pattern] ← json.fields? ["name", "pattern"] | none
    return (⟨← name.handle?⟩, ← Pattern.ofJson? depth pattern)
  | 0, _ => none
end

/-- The clause that a value stands for. -/
def Clause.ofJson? (depth : Nat) (json : Json) : Option Clause := do
  let [some pattern, guard, some body] ← json.fields? ["pattern", "guard", "body"] | none
  let pattern ← Pattern.ofJson? depth pattern
  let guard ← Json.optionalField? Json.handle? guard
  return { pattern, guard := guard.map GuardRef.mk, body := ⟨← body.handle?⟩ }

/-- The pattern that a text stands for. -/
def Pattern.ofText? (text : String) : Option Pattern :=
  (Json.ofText? text).bind (Pattern.ofJson? nestingLimit)

/-- The statement that a text stands for. Three containers stand around each pattern: the statement, the
list of clauses and the clause. -/
def Statement.ofText? (text : String) : Option Statement := do
  let [some subject, some clauses] ← (← Json.ofText? text).fields? ["subject", "clauses"] | none
  let subject ← subject.handle?
  return { subject := ⟨subject⟩, clauses := ← clauses.items? (Clause.ofJson? (nestingLimit - 3)) }

/-! ## Writing -/

open Compact

/-- The text of a constant. -/
def Literal.toText : Literal → String
  | .none => word "None"
  | .bool b => variant "Bool" (if b then "true" else "false")
  | .int n => variant "Int" (toString n)
  | .float x => variant "Float" (number x.bits.toNat)
  | .str name => variant "Str" (number name.index)

/-- The text of a mapping key. -/
def MappingKey.toText : MappingKey → String
  | .literal value => variant "Literal" value.toText
  | .computed expr => variant "Value" (number expr.index)

mutual
/-- The text of a pattern. -/
def Pattern.toText : Pattern → String
  | .wildcard => word "Wildcard"
  | .capture name => variant "Capture" (number name.index)
  | .literal value => variant "Literal" value.toText
  | .valueRef expr => variant "ValueRef" (number expr.index)
  | .sequence items star =>
    variant "Sequence" (record [("items", list (Pattern.textsOf items)), ("star", optional star)])
  | .mapping entries rest =>
    variant "Mapping" (record [("entries", list (Pattern.entryTexts entries)),
      ("rest", optional (rest.map (·.index)))])
  | .ofClass type positional keywords =>
    variant "Class" (record [("cls", number type.index), ("positional", list (Pattern.textsOf positional)),
      ("keywords", list (Pattern.keywordTexts keywords))])
  | .named pattern name =>
    variant "As" (record [("pattern", pattern.toText), ("name", number name.index)])
  | .anyOf alternatives => variant "Or" (list (Pattern.textsOf alternatives))

/-- The texts of some patterns. -/
def Pattern.textsOf : List Pattern → List String
  | [] => []
  | pattern :: rest => pattern.toText :: Pattern.textsOf rest

/-- The texts of the entries of a mapping pattern. -/
def Pattern.entryTexts : List (MappingKey × Pattern) → List String
  | [] => []
  | (key, pattern) :: rest =>
    record [("key", key.toText), ("pattern", pattern.toText)] :: Pattern.entryTexts rest

/-- The texts of the keywords of a class pattern. -/
def Pattern.keywordTexts : List (Name × Pattern) → List String
  | [] => []
  | (name, pattern) :: rest =>
    record [("name", number name.index), ("pattern", pattern.toText)] :: Pattern.keywordTexts rest
end

/-- The text of a clause. -/
def Clause.toText (clause : Clause) : String :=
  record [("pattern", clause.pattern.toText), ("guard", optional (clause.guard.map (·.index))),
    ("body", number clause.body.index)]

/-- The text of a statement. -/
def Statement.toText (statement : Statement) : String :=
  record [("subject", number statement.subject.index),
    ("clauses", list (statement.clauses.map Clause.toText))]

end StructuralMatch

/-!
# `Exchange.Compact` — JSON text without blanks

The words of the exchange format consist of ASCII letters and underscores, so that nothing in them needs
an escape.

## Contents

* `word`, `number`, `list`, `record`, `variant`, `optional`
-/

namespace StructuralMatch.Exchange.Compact

/-- A word of the format, as a string. -/
def word (text : String) : String := "\"" ++ text ++ "\""

/-- A natural number. -/
def number (n : Nat) : String := toString n

/-- An array. -/
def list (items : List String) : String := "[" ++ ",".intercalate items ++ "]"

/-- An object with the given fields, in order. -/
def record (fields : List (String × String)) : String :=
  "\x7b" ++ ",".intercalate (fields.map fun field => word field.1 ++ ":" ++ field.2) ++ "\x7d"

/-- A variant with a content: an object with the variant's name as its only key. -/
def variant (tag content : String) : String := record [(tag, content)]

/-- A number that may be missing. -/
def optional : Option Nat → String
  | some n => number n
  | none => "null"

end StructuralMatch.Exchange.Compact

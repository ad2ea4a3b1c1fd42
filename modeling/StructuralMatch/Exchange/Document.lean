import StructuralMatch.Exchange.Token

/-!
# `Exchange.Document` — from tokens to a JSON value

Tokens are read from left to right. The containers that are still open wait on a stack, so that the
depth of a text has no bound here.

## Contents

* `OpenContainer`, `Progress`, `Progress.step`
* `Json.ofTokens?`, `Json.ofText?`
-/

namespace StructuralMatch.Exchange

/-- A container that is still open, with its members so far, last first. -/
inductive OpenContainer where
  | array (items : List Json)
  /-- An object in which the value of a key is being read. -/
  | object (members : List (Option String × Json)) (key : Option String)
deriving Repr

/-- What has been read, and so what may follow. -/
inductive Progress where
  /-- A value must follow. -/
  | before (stack : List OpenContainer)
  /-- The first item of an array must follow, or its end. -/
  | firstItem (stack : List OpenContainer)
  /-- The first key of an object must follow, or its end. -/
  | firstKey (stack : List OpenContainer)
  /-- A further key of an object must follow. -/
  | nextKey (members : List (Option String × Json)) (stack : List OpenContainer)
  /-- The colon after a key must follow. -/
  | colon (members : List (Option String × Json)) (key : Option String) (stack : List OpenContainer)
  /-- A value is complete. -/
  | complete (json : Json) (stack : List OpenContainer)
deriving Repr

namespace Progress

/-- Reads the first token of a value. -/
def start (stack : List OpenContainer) : Token → Option Progress
  | .scalar value => some (.complete value stack)
  | .openArray => some (.firstItem stack)
  | .openObject => some (.firstKey stack)
  | _ => none

/-- Reads one token. -/
def step : Progress → Token → Option Progress
  | .before stack, token => start stack token
  | .firstItem stack, .closeArray => some (.complete (.array []) stack)
  | .firstItem stack, token => start (.array [] :: stack) token
  | .firstKey stack, .closeObject => some (.complete (.object []) stack)
  | .firstKey stack, .scalar (.string key) => some (.colon [] key stack)
  | .nextKey members stack, .scalar (.string key) => some (.colon members key stack)
  | .colon members key stack, .colon => some (.before (.object members key :: stack))
  | .complete json (.array items :: stack), .comma => some (.before (.array (json :: items) :: stack))
  | .complete json (.array items :: stack), .closeArray =>
    some (.complete (.array (json :: items).reverse) stack)
  | .complete json (.object members key :: stack), .comma =>
    some (.nextKey ((key, json) :: members) stack)
  | .complete json (.object members key :: stack), .closeObject =>
    some (.complete (.object ((key, json) :: members).reverse) stack)
  | _, _ => none

end Progress

namespace Json

/-- The value that tokens spell, if they spell exactly one. -/
def ofTokens? (tokens : List Token) : Option Json := do
  match ← tokens.foldlM Progress.step (.before []) with
  | .complete json [] => json
  | _ => none

/-- The value that a text spells. -/
def ofText? (text : String) : Option Json := (Token.ofText? text).bind ofTokens?

end Json

end StructuralMatch.Exchange

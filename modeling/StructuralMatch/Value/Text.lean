import StructuralMatch.Number.Text
import StructuralMatch.Text.Quoted
import StructuralMatch.Value.Basic

/-!
# `Value.Text` — values in diagnostics

Lists stand in brackets, dicts in braces with a colon between key and value, and tuples in parentheses,
where a single item has a comma behind it and an empty tuple is not written at all.

## Contents

* `Value.floatLayout`
* `Value.render`
-/

namespace StructuralMatch.Value

/-- Numbers from a ten-thousandth up to ten to the sixteenth are written without an exponent. -/
def floatLayout : FloatLayout := ⟨-4, 16⟩

/-- Texts with a comma and a blank between them. -/
def commaSeparated (texts : List String) : String := ", ".intercalate texts

/-- The text of a tuple with items of the given texts. -/
def tupleText : List String → String
  | [] => ""
  | [item] => "(" ++ item ++ ",)"
  | items => "(" ++ commaSeparated items ++ ")"

mutual
/-- The text of a value. -/
def render : Value → String
  | .none => "None"
  | .bool b => if b then "True" else "False"
  | .int n => toString n
  | .float x => x.render floatLayout
  | .str _ content => quoted content
  | .list _ items => "[" ++ commaSeparated (renderItems items) ++ "]"
  | .tuple _ items => tupleText (renderItems items)
  | .dict _ entries => "\x7b" ++ commaSeparated (renderEntries entries) ++ "\x7d"
  | .object _ type _ _ => "<" ++ type.label ++ " object>"

/-- The texts of some values. -/
def renderItems : List Value → List String
  | [] => []
  | item :: rest => render item :: renderItems rest

/-- The texts of some entries. -/
def renderEntries : List (Value × Value) → List String
  | [] => []
  | (key, value) :: rest => (render key ++ ": " ++ render value) :: renderEntries rest
end

end StructuralMatch.Value

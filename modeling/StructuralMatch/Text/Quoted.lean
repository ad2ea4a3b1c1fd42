import StructuralMatch.Text.JoiningMark

/-!
# `Text.Quoted` — strings in double quotes

Inside the quotes a backslash and a double quote get a backslash in front, four controls have a letter
of their own, and any other character that is not printable, or that would join the one before it, is
written as its number between braces.

## Contents

* `escapeChar`, `quoted`
-/

namespace StructuralMatch

/-- How a character is written between double quotes. -/
def escapeChar (c : Char) : List Char :=
  if c = '\x00' then ['\\', '0']
  else if c = '\t' then ['\\', 't']
  else if c = '\r' then ['\\', 'r']
  else if c = '\n' then ['\\', 'n']
  else if c = '\\' then ['\\', '\\']
  else if c = '"' then ['\\', '"']
  else if isJoiningMark c || !isPrintable c then
    ['\\', 'u', '\x7b'] ++ Nat.toDigits 16 c.toNat ++ ['\x7d']
  else [c]

/-- A text in double quotes. -/
def quoted (text : String) : String :=
  String.ofList ('"' :: text.toList.flatMap escapeChar ++ ['"'])

end StructuralMatch

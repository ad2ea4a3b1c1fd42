import StructuralMatch.Exchange.Json
import StructuralMatch.Number.Digits

/-!
# `Exchange.Token` — the tokens of a JSON text

The text is scanned character by character. Between strings, blanks and punctuation delimit the
spellings of numbers and of the three words. Only the four blanks of the JSON grammar separate tokens.

## Contents

* `Token`
* `decodePairs`, the text of a string's code points
* `integerOf?`, the grammar of numbers
* `Scan`, `Scan.step` and `Token.ofText?`
-/

namespace StructuralMatch.Exchange

/-- A token of JSON. -/
inductive Token where
  | openArray
  | closeArray
  | openObject
  | closeObject
  | comma
  | colon
  | scalar (value : Json)
deriving Repr, Inhabited

/-! ## Strings -/

/-- Whether a code point is the first half of a surrogate pair. -/
def isLeading (code : Nat) : Bool := 0xD800 ≤ code && code < 0xDC00

/-- Whether a code point is the second half of a surrogate pair. -/
def isTrailing (code : Nat) : Bool := 0xDC00 ≤ code && code < 0xE000

/-- The characters of code points in which surrogates stand in pairs only. -/
def decodePairs : List Nat → Option (List Char)
  | [] => some []
  | [code] => if isLeading code || isTrailing code then none else some [Char.ofNat code]
  | code :: next :: rest =>
    if isLeading code then
      if isTrailing next then
        (decodePairs rest).map (Char.ofNat (0x10000 + (code - 0xD800) * 0x400 + (next - 0xDC00)) :: ·)
      else none
    else if isTrailing code then none
    else (decodePairs (next :: rest)).map (Char.ofNat code :: ·)

/-- What a backslash and a letter stand for. -/
def escape? : Char → Option Char
  | '"' => some '"'
  | '\\' => some '\\'
  | '/' => some '/'
  | 'b' => some '\x08'
  | 'f' => some '\x0c'
  | 'n' => some '\n'
  | 'r' => some '\r'
  | 't' => some '\t'
  | _ => none

/-- The value of a hexadecimal digit. -/
def hexDigit? (c : Char) : Option Nat :=
  if '0' ≤ c ∧ c ≤ '9' then some (c.toNat - '0'.toNat)
  else if 'a' ≤ c ∧ c ≤ 'f' then some (c.toNat - 'a'.toNat + 10)
  else if 'A' ≤ c ∧ c ≤ 'F' then some (c.toNat - 'A'.toNat + 10)
  else none

/-! ## Numbers -/

/-- Whether characters are an exponent or nothing. -/
def isExponent : List Char → Bool
  | [] => true
  | e :: '+' :: digits | e :: '-' :: digits | e :: digits => (e = 'e' || e = 'E') && areDigits digits

/-- Whether characters are a fraction and an exponent, either of which may be missing. -/
def isTail : List Char → Bool
  | '.' :: rest =>
    let (digits, exponent) := rest.span Char.isDigit
    !digits.isEmpty && isExponent exponent
  | rest => isExponent rest

/-- Reads a number without its sign: the natural before the point, and whether nothing follows it. There
are no leading zeros. -/
def unsigned? (cs : List Char) : Option (Nat × Bool) :=
  let (whole, rest) := cs.span Char.isDigit
  if areDigits whole && (whole.length = 1 || whole.head? ≠ some '0') && isTail rest then
    some (naturalOfDigits whole, rest.isEmpty)
  else none

/-- Reads a number: the integer that it is written as, which negative zero is not, or `some none` for
any other number. -/
def integerOf? : List Char → Option (Option Int)
  | '-' :: cs => (unsigned? cs).map fun (n, whole) => if whole ∧ n ≠ 0 then some (-(n : Int)) else none
  | cs => (unsigned? cs).map fun (n, whole) => if whole then some (n : Int) else none

/-! ## Scanning -/

namespace Token

/-- The token of a character that stands for itself. -/
def punctuation? : Char → Option Token
  | '[' => some .openArray
  | ']' => some .closeArray
  | '\x7b' => some .openObject
  | '\x7d' => some .closeObject
  | ',' => some .comma
  | ':' => some .colon
  | _ => none

/-- The token of a spelling between separators. -/
def ofSpelling? (spelling : List Char) : Option Token :=
  if spelling = ['n', 'u', 'l', 'l'] then some (.scalar .null)
  else if spelling = ['t', 'r', 'u', 'e'] then some (.scalar (.bool true))
  else if spelling = ['f', 'a', 'l', 's', 'e'] then some (.scalar (.bool false))
  else (integerOf? spelling).map fun integer => .scalar (.number integer)

end Token

/-- Where a scan is in the text. What is collected there stands last first. -/
inductive Scan where
  /-- Between strings, after some characters of a spelling. -/
  | plain (spelling : List Char)
  /-- In a string. -/
  | quoted (codes : List Nat)
  /-- After a backslash. -/
  | escaped (codes : List Nat)
  /-- Among the four digits of an escape, `missing + 1` of which are still to come. -/
  | digits (codes : List Nat) (value missing : Nat)
deriving Repr

namespace Scan

/-- Whether a character separates tokens. -/
def isSeparator (c : Char) : Bool := c = ' ' || c = '\t' || c = '\n' || c = '\r'

/-- Adds the token of a spelling, unless it is empty, to the tokens so far. -/
def flush (tokens : List Token) : List Char → Option (List Token)
  | [] => some tokens
  | spelling => (Token.ofSpelling? spelling.reverse).map (· :: tokens)

/-- The token of a string. -/
def stringToken (codes : List Nat) : Token :=
  .scalar (.string ((decodePairs codes.reverse).map String.ofList))

/-- Scans one character, with the tokens so far, last first. -/
def step : List Token × Scan → Char → Option (List Token × Scan)
  | (tokens, .plain spelling), c =>
    if c = '"' then do return (← flush tokens spelling, .quoted [])
    else if isSeparator c then do return (← flush tokens spelling, .plain [])
    else match Token.punctuation? c with
      | some token => do return (token :: (← flush tokens spelling), .plain [])
      | none => some (tokens, .plain (c :: spelling))
  | (tokens, .quoted codes), c =>
    if c = '"' then some (stringToken codes :: tokens, .plain [])
    else if c = '\\' then some (tokens, .escaped codes)
    else if c < ' ' then none
    else some (tokens, .quoted (c.toNat :: codes))
  | (tokens, .escaped codes), c =>
    if c = 'u' then some (tokens, .digits codes 0 3)
    else do return (tokens, .quoted ((← escape? c).toNat :: codes))
  | (tokens, .digits codes value missing), c => do
    let value := 16 * value + (← hexDigit? c)
    match missing with
    | 0 => return (tokens, .quoted (value :: codes))
    | missing + 1 => return (tokens, .digits codes value missing)

end Scan

/-- The tokens of a text. -/
def Token.ofText? (text : String) : Option (List Token) := do
  match ← text.toList.foldlM Scan.step ([], .plain []) with
  | (tokens, .plain spelling) => return (← Scan.flush tokens spelling).reverse
  | _ => none

end StructuralMatch.Exchange

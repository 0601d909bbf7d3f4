import IssueQuery.Json.Number

/-!
# Reading JSON

`Json.parse?` reads a JSON text.  The parts of the grammar are readers on the characters that are
left: each returns what it read and the characters after it.  Arrays and objects contain values
again; since each value takes at least one character, the number of characters bounds the nesting.
-/

namespace IssueQuery.Json

/-- A reader of a part of a text. -/
abbrev Reader (α : Type) := List Char → Option (α × List Char)

/-- The characters that may stand between the parts of a text. -/
def isBlank (c : Char) : Bool := c == ' ' || c == '\t' || c == '\n' || c == '\r'

/-- The text without the blanks in front. -/
def skipBlanks (cs : List Char) : List Char := cs.dropWhile isBlank

/-- Reads a given character after blanks. -/
def expect (c : Char) : Reader Unit := fun cs =>
  match skipBlanks cs with
  | d :: rest => if d = c then some ((), rest) else none
  | [] => none

/-- The digits at the front. -/
def digits (cs : List Char) : List Nat × List Char :=
  ((cs.takeWhile Char.isDigit).map fun c => c.toNat - '0'.toNat, cs.dropWhile Char.isDigit)

/-- A list of digits as a number. -/
def ofDigits (ds : List Nat) : Nat := ds.foldl (fun n d => n * 10 + d) 0

/-- The part of a numeral after the point. -/
def fraction : Reader (Option (List Nat))
  | '.' :: cs =>
    match digits cs with
    | ([], _) => none
    | (ds, rest) => some (some ds, rest)
  | cs => some (none, cs)

/-- The power of ten of a numeral. -/
def exponent : Reader (Option Int)
  | [] => some (none, [])
  | c :: cs =>
    if c = 'e' ∨ c = 'E' then
      let (negative, cs) : Bool × List Char :=
        match cs with
        | '-' :: rest => (true, rest)
        | '+' :: rest => (false, rest)
        | _ => (false, cs)
      match digits cs with
      | ([], _) => none
      | (ds, rest) => some (some (if negative then -(ofDigits ds : Int) else ofDigits ds), rest)
    else some (none, c :: cs)

/-- A number.  A whole part of several digits does not start with zero. -/
def number : Reader Json := fun cs => do
  let (negative, cs) : Bool × List Char :=
    match cs with
    | '-' :: rest => (true, rest)
    | _ => (false, cs)
  let (whole, cs) := digits cs
  if whole.isEmpty || (whole.head? == some 0 && whole.length != 1) then none
  let (fraction, cs) ← fraction cs
  let (exponent, cs) ← exponent cs
  let value ← Numeral.value? { negative, whole, fraction, exponent }
  return (value, cs)

/-- The number that a hexadecimal digit stands for. -/
def hexDigit? (c : Char) : Option Nat :=
  if c.isDigit then some (c.toNat - '0'.toNat)
  else if 'a' ≤ c ∧ c ≤ 'f' then some (c.toNat - 'a'.toNat + 10)
  else if 'A' ≤ c ∧ c ≤ 'F' then some (c.toNat - 'A'.toNat + 10)
  else none

/-- Four hexadecimal digits. -/
def hexQuad : Reader Nat
  | a :: b :: c :: d :: rest => do
    return ((((← hexDigit? a) * 16 + (← hexDigit? b)) * 16 + (← hexDigit? c)) * 16
      + (← hexDigit? d), rest)
  | _ => none

/-- The character of an escape by number, after `\u`.  A character beyond the first `2 ^ 16` is
written as two halves, and a half alone is no character. -/
def numbered : Reader Char := fun cs => do
  let (high, cs) ← hexQuad cs
  if 0xDC00 ≤ high ∧ high ≤ 0xDFFF then none
  if 0xD800 ≤ high ∧ high ≤ 0xDBFF then
    match cs with
    | '\\' :: 'u' :: cs =>
      let (low, cs) ← hexQuad cs
      if 0xDC00 ≤ low ∧ low ≤ 0xDFFF then
        some (Char.ofNat (0x10000 + (high - 0xD800) * 0x400 + (low - 0xDC00)), cs)
      else none
    | _ => none
  else some (Char.ofNat high, cs)

/-- The character of an escape, after the backslash. -/
def escape : Reader Char
  | '"' :: cs => some ('"', cs)
  | '\\' :: cs => some ('\\', cs)
  | '/' :: cs => some ('/', cs)
  | 'b' :: cs => some ('\x08', cs)
  | 'f' :: cs => some ('\x0c', cs)
  | 'n' :: cs => some ('\n', cs)
  | 'r' :: cs => some ('\r', cs)
  | 't' :: cs => some ('\t', cs)
  | 'u' :: cs => numbered cs
  | _ => none

/-- The characters of a string up to its closing quote; `budget` bounds their number. -/
def stringRest (budget : Nat) : Reader (List Char) := fun cs =>
  match budget with
  | 0 => none
  | budget + 1 =>
    match cs with
    | [] => none
    | '"' :: rest => some ([], rest)
    | '\\' :: rest => do
      let (c, rest) ← escape rest
      let (more, rest) ← stringRest budget rest
      return (c :: more, rest)
    | c :: rest => do
      if c.toNat < 0x20 then none
      let (more, rest) ← stringRest budget rest
      return (c :: more, rest)

/-- A string, from its opening quote on. -/
def stringLiteral : Reader String
  | '"' :: cs => (stringRest (cs.length + 1) cs).map fun (s, rest) => (String.ofList s, rest)
  | _ => none

/-- A word that stands for a value. -/
def word (w : List Char) (value : Json) : Reader Json := fun cs =>
  if w.isPrefixOf cs then some (value, cs.drop w.length) else none

mutual

/-- A value after blanks; `budget` bounds the nesting. -/
def value (budget : Nat) : Reader Json := fun cs =>
  match budget with
  | 0 => none
  | budget + 1 =>
    match skipBlanks cs with
    | '\x7b' :: cs =>
      match expect '\x7d' cs with
      | some (_, rest) => some (object [], rest)
      | none => (members budget cs).map fun (ms, rest) => (object ms, rest)
    | '[' :: cs =>
      match expect ']' cs with
      | some (_, rest) => some (array [], rest)
      | none => (items budget cs).map fun (vs, rest) => (array vs, rest)
    | '"' :: cs => (stringLiteral ('"' :: cs)).map fun (s, rest) => (string s, rest)
    | 't' :: cs => word ['t', 'r', 'u', 'e'] (bool true) ('t' :: cs)
    | 'f' :: cs => word ['f', 'a', 'l', 's', 'e'] (bool false) ('f' :: cs)
    | 'n' :: cs => word ['n', 'u', 'l', 'l'] null ('n' :: cs)
    | cs => number cs

/-- The values of an array, up to its closing bracket. -/
def items (budget : Nat) : Reader (List Json) := fun cs =>
  match budget with
  | 0 => none
  | budget + 1 => do
    let (v, cs) ← value budget cs
    match expect ',' cs with
    | some (_, cs) =>
      let (vs, rest) ← items budget cs
      return (v :: vs, rest)
    | none =>
      let (_, rest) ← expect ']' cs
      return ([v], rest)

/-- The members of an object, up to its closing brace. -/
def members (budget : Nat) : Reader (List (String × Json)) := fun cs =>
  match budget with
  | 0 => none
  | budget + 1 => do
    let (key, cs) ← stringLiteral (skipBlanks cs)
    let (_, cs) ← expect ':' cs
    let (v, cs) ← value budget cs
    match expect ',' cs with
    | some (_, cs) =>
      let (ms, rest) ← members budget cs
      return ((key, v) :: ms, rest)
    | none =>
      let (_, rest) ← expect '\x7d' cs
      return ([(key, v)], rest)

end

/-- The value of a text that holds one value and nothing else but blanks. -/
def parse? (text : String) : Option Json := do
  let cs := text.toList
  let (v, rest) ← value (cs.length + 1) cs
  if (skipBlanks rest).isEmpty then some v else none

end IssueQuery.Json

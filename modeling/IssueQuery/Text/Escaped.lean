import IssueQuery.Text.Visible

/-!
# Text quoted for diagnostics

Inside double quotes, quotes and backslashes carry a backslash, the common controls have short
names, and every other character that does not show itself is written by its number.
-/

namespace IssueQuery

/-- A character as it stands inside the quotes. -/
def escapedChar (c : Char) : List Char :=
  match c with
  | '\x00' => ['\\', '0']
  | '\t' => ['\\', 't']
  | '\n' => ['\\', 'n']
  | '\r' => ['\\', 'r']
  | '"' => ['\\', '"']
  | '\\' => ['\\', '\\']
  | c =>
    if isVisible c then [c]
    else ['\\', 'u', '\x7b'] ++ Nat.toDigits 16 c.toNat ++ ['\x7d']

/-- A text between double quotes, safe to show. -/
def escapedText (s : String) : String :=
  String.ofList ('"' :: (s.toList.flatMap escapedChar ++ ['"']))

end IssueQuery

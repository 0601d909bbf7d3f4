import IssueQuery.Json.Basic
import IssueQuery.Numeric.Shortest
import IssueQuery.Text.Escaped

/-!
# Counts in a JSON body

A count is a whole number of 32 bits.  `Json.count` reads the count under a key of a body, where a
missing key and null stand for zero, and `CountError.message` says what stood there instead.
-/

namespace IssueQuery

/-- Why there is no count under a key. -/
inductive CountError where
  /-- The value is not a whole number. -/
  | wrongType (found : Json)
  /-- The whole number does not fit into 32 bits. -/
  | outOfRange (n : Int)

/-- Floating-point numbers in messages about a body have the fewest digits.  They keep a decimal,
and have an exponent when the leading digit stands more than five places after the point or more
than sixteen before it. -/
def Json.floatFormat : FloatFormat where
  tie := .toEven
  positional leading := -5 ≤ leading && leading ≤ 15
  wholePoint := true

namespace Json

/-- What a value is, in a message. -/
def description : Json → String
  | null => "null"
  | bool b => "boolean \x60" ++ (if b then "true" else "false") ++ "\x60"
  | int n => "integer \x60" ++ toString n ++ "\x60"
  | float x => "floating point \x60" ++ floatFormat.text x ++ "\x60"
  | string s => "string " ++ escapedText s
  | array _ => "sequence"
  | object _ => "map"

/-- The count that a value holds. -/
def toCount : Json → Except CountError UInt32
  | int n =>
    if h : 0 ≤ n ∧ n.toNat < UInt32.size then .ok (.ofNatLT n.toNat h.2)
    else .error (.outOfRange n)
  | found => .error (.wrongType found)

/-- The count under a key, zero if there is none. -/
def count (body : Json) (key : String) : Except CountError UInt32 :=
  match body.get? key with
  | none | some null => .ok 0
  | some found => found.toCount

end Json

/-- The failure for a reader. -/
def CountError.message : CountError → String
  | wrongType found => "invalid type: " ++ found.description ++ ", expected u32"
  | outOfRange n => "invalid value: " ++ (Json.int n).description ++ ", expected u32"

end IssueQuery

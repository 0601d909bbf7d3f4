import IssueQuery.Calendar
import IssueQuery.Numeric.Shortest

/-!
# Literal values

A `Value` is a literal of a query: a constant written down by the caller, or what a closed part of
an expression came to.  Four kinds of value hold text: plain text, text that can be ordered, text
that asks for an exact match, and text that stands for a date.  `Value.jql` is the text of a literal
inside a query.  Text and dates stand in double quotes, and text is taken as it is.
-/

namespace IssueQuery

/-- The literals of queries. -/
inductive Value where
  | null
  | bool (b : Bool)
  | int (n : Int64)
  | float (x : Float)
  | text (s : String)
  /-- Text that can be ordered against other text, such as an issue key. -/
  | comparable (s : String)
  /-- Text to be matched exactly, whatever the policy of the field. -/
  | exact (s : String)
  /-- The text of a date, used as written. -/
  | literalDate (s : String)
  | dateTime (t : DateTime)

/-- The kinds of value, as diagnostics name them. -/
inductive ValueType where
  | null | bool | int | float | text | comparable | exact | literalDate | dateTime
  deriving DecidableEq

/-- The name of a kind of value in diagnostics. -/
def ValueType.name : ValueType → String
  | .null => "null"
  | .bool => "bool"
  | .int => "int"
  | .float => "float"
  | .text => "string"
  | .comparable => "comparable string"
  | .exact => "literal match"
  | .literalDate => "literal date"
  | .dateTime => "datetime"

/-- Floating-point literals have the fewest digits, never an exponent, and no `.0`. -/
def Value.floatFormat : FloatFormat where
  tie := .up
  positional _ := true
  wholePoint := false

/-- Text as a literal: between double quotes, with nothing escaped. -/
def quoted (s : String) : String := "\"" ++ s ++ "\""

/-- A quoted text is the text between two quotation marks. -/
theorem toList_quoted (s : String) : (quoted s).toList = '"' :: (s.toList ++ ['"']) := by
  simp [quoted]

namespace Value

/-- The kind of a value. -/
def type : Value → ValueType
  | null => .null
  | bool _ => .bool
  | int _ => .int
  | float _ => .float
  | text _ => .text
  | comparable _ => .comparable
  | exact _ => .exact
  | literalDate _ => .literalDate
  | dateTime _ => .dateTime

/-- Whether a value is null. -/
def isNull : Value → Bool
  | null => true
  | _ => false

/-- Plain or comparable text without characters. -/
def isEmptyText : Value → Bool
  | text s | comparable s => s.isEmpty
  | _ => false

/-- The text inside a value of one of the four kinds that hold text. -/
def text? : Value → Option String
  | text s | comparable s | exact s | literalDate s => some s
  | _ => none

/-- The number that a numeric value stands for, as a floating-point number. -/
def number? : Value → Option Float
  | int n => some (Float.ofInt n.toInt)
  | float x => some x
  | _ => none

/-- The text of a value in a query. -/
def jql : Value → String
  | null => "null"
  | bool b => if b then "true" else "false"
  | int n => toString n.toInt
  | float x => floatFormat.text x
  | text s | comparable s | exact s | literalDate s => quoted s
  | dateTime t => quoted t.date.text

/-- Equality of values: of the same kind and with equal contents.  Floating-point numbers are
compared as numbers, so the value that is not a number differs from itself and the two zeros are
equal. -/
def equals : Value → Value → Bool
  | null, null => true
  | bool a, bool b => a == b
  | int a, int b => a == b
  | float x, float y => x == y
  | text s, text t => s == t
  | comparable s, comparable t => s == t
  | exact s, exact t => s == t
  | literalDate s, literalDate t => s == t
  | dateTime a, dateTime b => decide (a = b)
  | _, _ => false

instance : BEq Value := ⟨equals⟩

/-- The order of two floating-point numbers, if neither is the value that is not a number. -/
def compareFloats? (x y : Float) : Option Ordering :=
  if x < y then some .lt else if x == y then some .eq else if y < x then some .gt else none

/-- The order of two values that have one: date-times, truth values, texts of any kind by their
characters, and numbers by the floating-point numbers they stand for. -/
def compare? (a b : Value) : Option Ordering :=
  match a, b with
  | dateTime s, dateTime t => some (s.compare t)
  | bool s, bool t => some (compare s t)
  | _, _ =>
    match a.text?, b.text? with
    | some s, some t => some (compare s t)
    | _, _ => do compareFloats? (← a.number?) (← b.number?)

/-- The text inside a value that wraps it: comparable text, exact text or the text of a date. -/
def wrappedText? : Value → Option String
  | comparable s | exact s | literalDate s => some s
  | _ => none

/-- The order of two comparable texts. -/
def compareComparable? : Value → Value → Option Ordering
  | comparable s, comparable t => some (compare s t)
  | _, _ => none

/-- A day as a value is its first moment. -/
def ofDate (d : Date) : Value := dateTime (.ofDate d)

/-- An instant as a value is what the clock shows `offset` seconds east. -/
def ofInstant (utc : DateTime) (offset : Int) : Value := dateTime (utc.shift offset)

/-- A missing value is null. -/
def ofOption (v : Option Value) : Value := v.getD null

end Value

end IssueQuery

import IssueQuery.Value

/-!
# Expressions over a record

An `Expr` is the body of a condition or of an ordering key.  Members and indexed fields read the
record; all other nodes are constants or can be reduced to one.  Captured values and calls run
actions of the host program, which may read and change its state `σ` and may fail with a message.
`Expr.debugText` writes an expression for a reader.
-/

namespace IssueQuery

/-- An action of the host program on its state: a value, or a message of failure. -/
abbrev HostAction (σ : Type) := σ → Except String Value × σ

/-- The operators with two operands. -/
inductive BinaryOp where
  | equal | notEqual
  | greaterThan | greaterThanOrEqual | lessThan | lessThanOrEqual
  | andAlso | orElse
  | add | subtract | multiply | divide | modulo
  deriving DecidableEq

/-- The name of an operator in diagnostics. -/
def BinaryOp.name : BinaryOp → String
  | equal => "Equal"
  | notEqual => "NotEqual"
  | greaterThan => "GreaterThan"
  | greaterThanOrEqual => "GreaterThanOrEqual"
  | lessThan => "LessThan"
  | lessThanOrEqual => "LessThanOrEqual"
  | andAlso => "AndAlso"
  | orElse => "OrElse"
  | add => "Add"
  | subtract => "Subtract"
  | multiply => "Multiply"
  | divide => "Divide"
  | modulo => "Modulo"

/-- Expressions on a record of the server. -/
inductive Expr (σ : Type) where
  /-- A member of the record. -/
  | field (name : String)
  /-- A field of the record looked up by a name that is itself computed. -/
  | indexer (key : Expr σ)
  | constant (v : Value)
  /-- A value of the surrounding program, read when the query is compiled. -/
  | captured (name : String) (read : HostAction σ)
  /-- A function of the host program on the values of its arguments. -/
  | call (name : String) (args : List (Expr σ)) (apply : List Value → HostAction σ)
  /-- A conversion, which changes nothing. -/
  | convert (inner : Expr σ)
  | not (inner : Expr σ)
  | binary (op : BinaryOp) (left right : Expr σ)

/-- The kinds of node, as diagnostics name them. -/
inductive NodeKind where
  | memberAccess | index | constant | captured | call | convert | not
  | binary (op : BinaryOp)
  deriving DecidableEq

/-- The name of a kind of node in diagnostics. -/
def NodeKind.name : NodeKind → String
  | memberAccess => "MemberAccess"
  | index => "Index"
  | constant => "Constant"
  | captured => "Captured"
  | call => "Call"
  | convert => "Convert"
  | not => "Not"
  | binary op => op.name

namespace Expr

variable {σ : Type}

/-- A field looked up by a fixed name. -/
def customField (name : String) : Expr σ := indexer (constant (.text name))

/-- The kind of the outermost node. -/
def kind : Expr σ → NodeKind
  | field _ => .memberAccess
  | indexer _ => .index
  | constant _ => .constant
  | captured _ _ => .captured
  | call _ _ _ => .call
  | convert _ => .convert
  | not _ => .not
  | binary op _ _ => .binary op

mutual

/-- Whether the expression reads the record, itself or in a part. -/
def dependsOnRecord : Expr σ → Bool
  | field _ | indexer _ => true
  | constant _ | captured _ _ => false
  | call _ args _ => anyDependsOnRecord args
  | convert inner | not inner => inner.dependsOnRecord
  | binary _ left right => left.dependsOnRecord || right.dependsOnRecord

/-- Whether one of the expressions reads the record. -/
def anyDependsOnRecord : List (Expr σ) → Bool
  | [] => false
  | e :: es => e.dependsOnRecord || anyDependsOnRecord es

end

/-- A list of expressions depends on the record when one of them does. -/
theorem anyDependsOnRecord_eq_any (es : List (Expr σ)) :
    anyDependsOnRecord es = es.any dependsOnRecord := by
  induction es with
  | nil => simp [anyDependsOnRecord]
  | cons e es ih => simp [anyDependsOnRecord, ih]

mutual

/-- The number of indexed fields in the expression. -/
def indexers : Expr σ → Nat
  | field _ | constant _ | captured _ _ => 0
  | indexer key => 1 + key.indexers
  | call _ args _ => indexersOfAll args
  | convert inner | not inner => inner.indexers
  | binary _ left right => left.indexers + right.indexers

/-- The number of indexed fields in all of the expressions. -/
def indexersOfAll : List (Expr σ) → Nat
  | [] => 0
  | e :: es => e.indexers + indexersOfAll es

end

/-- The expression inside all conversions around it. -/
def withoutConversions : Expr σ → Expr σ
  | convert inner => inner.withoutConversions
  | e => e

mutual

/-- The expression for a reader: operators between their operands and always in parentheses. -/
def debugText : Expr σ → String
  | field name => "x." ++ name
  | indexer key => "x[" ++ key.debugText ++ "]"
  | constant v => v.jql
  | captured name _ => "<" ++ name ++ ">"
  | call name args _ => name ++ "(" ++ String.intercalate ", " (debugTexts args) ++ ")"
  | convert inner => "Convert(" ++ inner.debugText ++ ")"
  | not inner => "!(" ++ inner.debugText ++ ")"
  | binary op left right =>
    "(" ++ left.debugText ++ " " ++ op.name ++ " " ++ right.debugText ++ ")"

/-- The expressions for a reader, one by one. -/
def debugTexts : List (Expr σ) → List String
  | [] => []
  | e :: es => e.debugText :: debugTexts es

end

end Expr

end IssueQuery

import IssueQuery.Field

/-!
# Predicates of the query language

A predicate is a tree of comparisons.  In the text of a query every conjunction and disjunction
stands in parentheses:

```text
field op literal
field is null        field is not null
field is empty       field is not empty
(predicate and predicate)
(predicate or predicate)
```
-/

namespace IssueQuery

/-- The operators of the query language. -/
inductive Operator where
  | equals | notEquals
  | contains | notContains
  | is | isNot
  | greaterThan | greaterThanOrEquals | lessThan | lessThanOrEquals
  deriving DecidableEq

namespace Operator

/-- The operator in the text of a query. -/
def text : Operator → String
  | equals => "="
  | notEquals => "!="
  | contains => "~"
  | notContains => "!~"
  | is => "is"
  | isNot => "is not"
  | greaterThan => ">"
  | greaterThanOrEquals => ">="
  | lessThan => "<"
  | lessThanOrEquals => "<="

/-- The operator that asks for equality, or for its opposite, under a policy. -/
def equality (policy : EqualityPolicy) (positive : Bool) : Operator :=
  match policy, positive with
  | .equals, true => equals
  | .equals, false => notEquals
  | .contains, true => contains
  | .contains, false => notContains

end Operator

/-- The right side of a comparison: a literal, or one of the two keywords. -/
inductive Operand where
  | literal (v : Value)
  | null
  | empty

/-- The operand in the text of a query. -/
def Operand.text : Operand → String
  | literal v => v.jql
  | null => "null"
  | empty => "empty"

/-- A field, compared with an operand. -/
structure Comparison where
  field : FieldRef
  operator : Operator
  operand : Operand

/-- The comparison in the text of a query. -/
def Comparison.text (c : Comparison) : String :=
  c.field.text ++ " " ++ c.operator.text ++ " " ++ c.operand.text

/-- A condition of the query language. -/
inductive Predicate where
  | comparison (c : Comparison)
  | and (left right : Predicate)
  | or (left right : Predicate)

namespace Predicate

/-- The text of a predicate in a query. -/
def jql : Predicate → String
  | comparison c => c.text
  | and left right => "(" ++ left.jql ++ " and " ++ right.jql ++ ")"
  | or left right => "(" ++ left.jql ++ " or " ++ right.jql ++ ")"

/-- The comparisons of a predicate, from left to right. -/
def comparisons : Predicate → List Comparison
  | comparison c => [c]
  | and left right | or left right => left.comparisons ++ right.comparisons

end Predicate

end IssueQuery

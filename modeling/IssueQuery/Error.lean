import IssueQuery.Expr.Evaluation
import IssueQuery.Json.Count

/-!
# Errors

Everything that can go wrong with a query, each with its cause.  The first six errors arise before
any request is made, while a query is compiled and its fields are looked up; the others belong to
the request or to the records that came back.
-/

namespace IssueQuery

/-- Why a query has no result. -/
inductive Error where
  /-- A stage, a node or an operator that the query language does not have. -/
  | notSupported (kind : String)
  /-- What should be a field is neither a member nor an indexed field. -/
  | unsupportedField (operator : String)
  /-- The right side of a comparison is not a constant. -/
  | nonConstantOperand (op : BinaryOp)
  /-- Null compared by order. -/
  | nullComparison (field : String) (op : BinaryOp)
  /-- A closed part of an expression has no value. -/
  | evaluation (cause : EvalError)
  | fieldNotFound (name : String)
  /-- A failure of the server or of the way to it. -/
  | fetch (message : String)
  | cancelled
  /-- A page without readable counts. -/
  | page (cause : CountError)
  | emptySequence
  | moreThanOneElement

namespace Error

/-- The error for a reader. -/
def message : Error → String
  | notSupported kind => "expression type '" ++ kind ++ "' is not supported"
  | unsupportedField operator =>
    "operator '" ++ operator ++ "' can only be applied on properties and property indexers"
  | nonConstantOperand op => "operator '" ++ op.name ++ "' can only be used with constant values"
  | nullComparison field op =>
    "operator '" ++ op.name ++ "' cannot compare field '" ++ field ++ "' against null"
  | evaluation cause => "failed to evaluate constant sub-expression: " ++ cause.message
  | fieldNotFound name => "custom field '" ++ name ++ "' was not found"
  | fetch message => "fetch failed: " ++ message
  | cancelled => "request was cancelled"
  | page cause => "invalid paged result: " ++ cause.message
  | emptySequence => "sequence contains no elements"
  | moreThanOneElement => "sequence contains more than one element"

/-- Whether an error arises before any request is made. -/
def precedesRequest : Error → Bool
  | notSupported _ | unsupportedField _ | nonConstantOperand _ | nullComparison _ _
  | evaluation _ | fieldNotFound _ => true
  | _ => false

/-- The message of the error behind this one. -/
def source? : Error → Option String
  | fetch message => some message
  | page cause => some cause.message
  | _ => none

end Error

end IssueQuery

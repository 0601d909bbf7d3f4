import IssueQuery.Pipeline
import IssueQuery.Predicate

/-!
# Directives

A `CompiledQuery` is what a pipeline means in the query language: the predicate of each condition
and the field of each ordering, in the order of their declaration, and the paging.  A `Directive` is
the same as text, ready for a request, together with the names of the fields that have to be looked
up before.
-/

namespace IssueQuery

/-- One key of an ordering. -/
structure OrderClause where
  field : FieldRef
  direction : Direction
  deriving DecidableEq

/-- The key in the text of a query. -/
def OrderClause.text (clause : OrderClause) : String :=
  clause.field.text ++ " " ++ clause.direction.text

/-- What a request asks for. -/
structure Directive where
  /-- The condition, empty when there is none. -/
  filterText : String
  orderClauses : List OrderClause
  maxResults : Option UInt32
  startAt : Option UInt32
  /-- The names of the fields that have to be looked up. -/
  customFields : List String
  deriving DecidableEq

namespace Directive

/-- The ordering in the text of a query, empty when there is none. -/
def orderText (d : Directive) : String :=
  if d.orderClauses.isEmpty then ""
  else " order by " ++ String.intercalate ", " (d.orderClauses.map OrderClause.text)

/-- The text of the query. -/
def jql (d : Directive) : String := d.filterText ++ d.orderText

/-- The index of the first record; without a start it is the first of all. -/
def firstRecord (d : Directive) : UInt32 := d.startAt.getD 0

end Directive

/-- A pipeline in the terms of the query language. -/
structure CompiledQuery where
  filters : List Predicate
  orderClauses : List OrderClause
  maxResults : Option UInt32
  startAt : Option UInt32

namespace CompiledQuery

/-- The predicates side by side. -/
def filterText (q : CompiledQuery) : String :=
  String.intercalate " and " (q.filters.map Predicate.jql)

/-- The fields of the query: those of the ordering, the last declared first, and then those of the
comparisons. -/
def fields (q : CompiledQuery) : List FieldRef :=
  (q.orderClauses.map OrderClause.field).reverse ++
    q.filters.flatMap fun p => p.comparisons.map Comparison.field

/-- The names of the fields to be looked up, each at its first occurrence. -/
def customFields (q : CompiledQuery) : List String :=
  (q.fields.filterMap FieldRef.dynamicName?).eraseDups

/-- The query as text. -/
def directive (q : CompiledQuery) : Directive where
  filterText := q.filterText
  orderClauses := q.orderClauses
  maxResults := q.maxResults
  startAt := q.startAt
  customFields := q.customFields

end CompiledQuery

end IssueQuery

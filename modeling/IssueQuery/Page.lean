import IssueQuery.Error

/-!
# Pages

One page of a remote collection, with its place in the whole.
-/

namespace IssueQuery

/-- Some records of a remote collection. -/
structure Page (R : Type) where
  items : List R
  /-- The index of the first record of the page. -/
  startAt : UInt32
  itemsPerPage : UInt32
  /-- The number of records on the server. -/
  totalItems : UInt32
  deriving DecidableEq

/-- The page with the given records whose place is told by the body of a response.  The first count
that cannot be read is the error. -/
def Page.ofJson {R : Type} (body : Json) (items : List R) : Except Error (Page R) := do
  let startAt ← (body.count "startAt").mapError Error.page
  let itemsPerPage ← (body.count "maxResults").mapError Error.page
  let totalItems ← (body.count "total").mapError Error.page
  return { items, startAt, itemsPerPage, totalItems }

end IssueQuery

import IssueQuery.Execution.Task
import IssueQuery.LocalPlan

/-!
# Queries

A query is a pipeline together with the signal that cancels its requests.  Building a query only
declares stages; nothing is sent.  Each of the terminals at the end makes its own request.
-/

namespace IssueQuery

variable {σ R α β : Type}

/-- Hands on the records of a page for a pipeline, after the local stages if there are any. -/
def Pipeline.finish (p : Pipeline σ R) (page : Page R) : Compilation σ (List R) := do
  if !p.hasLocalStages then return page.items
  let plan := LocalPlan.ofPipeline p page.items
  Compilation.note (.localStages plan.stages plan.debugText)
  ExceptT.lift plan.execute

namespace Task

/-- Fetches the page of a pipeline; local stages are not run. -/
def page (p : Pipeline σ R) (signal : Option Signal) (result : Page R → α) : Task σ R α :=
  .fetch p signal (fun page => return result page) .fresh

/-- Fetches the page of a pipeline and runs the local stages on it. -/
def records (p : Pipeline σ R) (signal : Option Signal) (result : List R → Except Error α) :
    Task σ R α :=
  .fetch p signal (fun page => do liftExcept (result (← p.finish page))) .fresh

end Task

/-- A pipeline that is being declared. -/
structure Query (σ R : Type) where
  pipeline : Pipeline σ R
  /-- The signal that cancels the requests, if there is one. -/
  signal : Option Signal

namespace Query

/-- All records. -/
def all : Query σ R := ⟨.source, none⟩

/-- Declares one more stage. -/
def push (q : Query σ R) (stage : Stage σ R) : Query σ R :=
  { q with pipeline := q.pipeline.push stage }

/-- Keeps the records that fulfil a condition. -/
def filter (q : Query σ R) (condition : Expr σ) : Query σ R := q.push (.filter condition)

/-- Orders the records by a key. -/
def orderBy (q : Query σ R) (key : Expr σ) : Query σ R := q.push (.order key .ascending false)

/-- Orders the records by a key, the greatest first. -/
def orderByDescending (q : Query σ R) (key : Expr σ) : Query σ R :=
  q.push (.order key .descending false)

/-- Orders records that are alike so far by one more key. -/
def thenBy (q : Query σ R) (key : Expr σ) : Query σ R := q.push (.order key .ascending true)

/-- Orders records that are alike so far by one more key, the greatest first. -/
def thenByDescending (q : Query σ R) (key : Expr σ) : Query σ R :=
  q.push (.order key .descending true)

/-- Limits the size of the page. -/
def take (q : Query σ R) (count : UInt32) : Query σ R := q.push (.take count)

/-- Starts the page at a later record. -/
def skip (q : Query σ R) (count : UInt32) : Query σ R := q.push (.skip count)

/-- Filters the records of the page. -/
def filterLocal (q : Query σ R) (predicate : LocalPredicate σ R) : Query σ R :=
  q.push (.localFilter predicate)

/-- Lets a signal cancel the requests of the query and of all queries made from it. -/
def withCancellation (q : Query σ R) (signal : Signal) : Query σ R :=
  { q with signal := some signal }

/-- The query for a reader. -/
def debugText (q : Query σ R) : String :=
  "Queryable \x7b pipeline: " ++ q.pipeline.debugText ++ ", .. \x7d"

/-- The page of the query; local stages are not run. -/
def page (q : Query σ R) (result : Page R → α) : Task σ R α := .page q.pipeline q.signal result

/-- What a terminal makes of the records: without local stages they are the page as it is. -/
def records (q : Query σ R) (result : List R → Except Error α) : Task σ R α :=
  if q.pipeline.hasLocalStages then .records q.pipeline q.signal result
  else .fetch q.pipeline q.signal (fun page => liftExcept (result page.items)) .fresh

end Query

/-! ### Terminals -/

namespace Terminal

/-- The first record. -/
def first (records : List R) : Except Error R :=
  match records.head? with
  | some r => .ok r
  | none => .error .emptySequence

/-- The only record. -/
def single : List R → Except Error R
  | [] => .error .emptySequence
  | [r] => .ok r
  | _ :: _ :: _ => .error .moreThanOneElement

end Terminal

namespace Query

/-- The records in a list. -/
def toList (q : Query σ R) (result : List R → α) : Task σ R α := q.records fun rs => .ok (result rs)

/-- The number of the records. -/
def count (q : Query σ R) (result : Nat → α) : Task σ R α :=
  q.records fun rs => .ok (result rs.length)

/-- Whether there is a record. -/
def any (q : Query σ R) (result : Bool → α) : Task σ R α :=
  q.records fun rs => .ok (result !rs.isEmpty)

/-- The first record; it is an error if there is none. -/
def first (q : Query σ R) (result : R → α) : Task σ R α :=
  q.records fun rs => (Terminal.first rs).map result

/-- The first record, if there is one. -/
def first? (q : Query σ R) (result : Option R → α) : Task σ R α :=
  q.records fun rs => .ok (result rs.head?)

/-- The only record; it is an error if there is none or more than one. -/
def single (q : Query σ R) (result : R → α) : Task σ R α :=
  q.records fun rs => (Terminal.single rs).map result

/-- What a function makes of each record. -/
def select (q : Query σ R) (f : R → β) (result : List β → α) : Task σ R α :=
  q.records fun rs => .ok (result (rs.map f))

/-- What a function makes of all records, from the first to the last. -/
def fold (q : Query σ R) (f : β → R → β) (start : β) (result : β → α) : Task σ R α :=
  q.records fun rs => .ok (result (rs.foldl f start))

end Query

end IssueQuery

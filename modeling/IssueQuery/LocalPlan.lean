import IssueQuery.Context
import IssueQuery.Pipeline

/-!
# Local stages

The records that come back stand for everything that the server has carried out.  What is left of
the pipeline are the local filters declared after the last such stage; they run one after the other,
each over all records that the one before it left.
-/

namespace IssueQuery

variable {σ R : Type}

/-- The records for which a predicate holds; it is tested once on each, from the first to the
last. -/
def LocalPredicate.keep (predicate : LocalPredicate σ R) : List R → StateM σ (List R)
  | [] => return []
  | r :: rs => do
    let holds ← predicate r
    let kept ← keep predicate rs
    return if holds then r :: kept else kept

/-- Fetched records and the filters still to be run, in the order of their declaration. -/
structure LocalPlan (σ R : Type) where
  records : List R
  filters : List (LocalPredicate σ R)

namespace LocalPlan

/-- The plan for records that were fetched for a pipeline. -/
def ofPipeline (p : Pipeline σ R) (records : List R) : LocalPlan σ R where
  records
  filters := ((p.newestFirst.takeWhile (!·.isPushedDown)).filterMap Stage.localPredicate?).reverse

/-- The number of stages to be run. -/
def stages (plan : LocalPlan σ R) : Nat := plan.filters.length

/-- The plan for a reader. -/
def debugText (plan : LocalPlan σ R) : String :=
  "Materialized(" ++ toString plan.records.length ++ " items)" ++
    String.join (plan.filters.map fun _ => ".LocalWhere(<fn>)")

/-- Runs one filter over the records. -/
def step (records : List R) (filter : LocalPredicate σ R) : StateM (Context σ) (List R) := do
  Context.note (.localFilter records.length)
  Context.onHost (filter.keep records)

/-- Runs the filters and returns the records that are left. -/
def execute (plan : LocalPlan σ R) : StateM (Context σ) (List R) :=
  plan.filters.foldlM step plan.records

end LocalPlan

end IssueQuery

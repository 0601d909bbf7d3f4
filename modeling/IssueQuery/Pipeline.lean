import IssueQuery.Expr.Basic

/-!
# Pipelines

A pipeline is what a caller declared: stages put one after another onto the remote collection.
Conditions, orderings and the two paging stages are sent to the server; a local filter is a
function of the host program and runs on the records that come back.
-/

namespace IssueQuery

/-- The direction of an ordering. -/
inductive Direction where
  | ascending
  | descending
  deriving DecidableEq

/-- The direction in the text of a query. -/
def Direction.text : Direction → String
  | ascending => "asc"
  | descending => "desc"

/-- A condition on records that only the host program can decide. -/
abbrev LocalPredicate (σ R : Type) := R → StateM σ Bool

/-- A step of a query. -/
inductive Stage (σ R : Type) where
  | filter (condition : Expr σ)
  /-- An ordering key; `secondary` when it orders within an earlier ordering. -/
  | order (key : Expr σ) (direction : Direction) (secondary : Bool)
  | take (count : UInt32)
  | skip (count : UInt32)
  | localFilter (predicate : LocalPredicate σ R)

namespace Stage

variable {σ R : Type}

/-- The name of an ordering stage. -/
def orderName (direction : Direction) (secondary : Bool) : String :=
  match secondary, direction with
  | false, .ascending => "OrderBy"
  | false, .descending => "OrderByDescending"
  | true, .ascending => "ThenBy"
  | true, .descending => "ThenByDescending"

/-- The name of a stage in diagnostics. -/
def name : Stage σ R → String
  | filter _ => "Where"
  | order _ direction secondary => orderName direction secondary
  | take _ => "Take"
  | skip _ => "Skip"
  | localFilter _ => "LocalWhere"

/-- Whether the server carries the stage out. -/
def isPushedDown : Stage σ R → Bool
  | localFilter _ => false
  | _ => true

/-- The predicate of a local filter. -/
def localPredicate? : Stage σ R → Option (LocalPredicate σ R)
  | localFilter predicate => some predicate
  | _ => none

/-- The number of indexed fields in the stage. -/
def indexers : Stage σ R → Nat
  | filter condition => condition.indexers
  | order key _ _ => key.indexers
  | take _ | skip _ | localFilter _ => 0

/-- The argument of a stage for a reader. -/
def argumentText : Stage σ R → String
  | filter condition => condition.debugText
  | order key _ _ => key.debugText
  | take count | skip count => toString count.toNat
  | localFilter _ => "<fn>"

/-- The stage for a reader, as a call on what comes before it. -/
def debugText (stage : Stage σ R) : String :=
  "." ++ stage.name ++ "(" ++ stage.argumentText ++ ")"

end Stage

/-- The stages of a pipeline, the one declared last at the front. -/
structure Pipeline (σ R : Type) where
  newestFirst : List (Stage σ R)

namespace Pipeline

variable {σ R : Type}

/-- The whole remote collection. -/
def source : Pipeline σ R := ⟨[]⟩

/-- Declares one more stage. -/
def push (p : Pipeline σ R) (stage : Stage σ R) : Pipeline σ R := ⟨stage :: p.newestFirst⟩

/-- The stages in the order of their declaration. -/
def declared (p : Pipeline σ R) : List (Stage σ R) := p.newestFirst.reverse

/-- The pipeline with the given stages in the order of their declaration. -/
def ofDeclared (stages : List (Stage σ R)) : Pipeline σ R := ⟨stages.reverse⟩

/-- Whether something of the pipeline runs on the records that come back. -/
def hasLocalStages (p : Pipeline σ R) : Bool := p.newestFirst.any (!·.isPushedDown)

/-- The number of indexed fields in all stages. -/
def indexers (p : Pipeline σ R) : Nat :=
  p.newestFirst.foldl (fun n stage => n + stage.indexers) 0

/-- The names of the stages and whether the server carries them out, from the last declared down to
the source. -/
def outline (p : Pipeline σ R) : List (String × Bool) :=
  p.newestFirst.map (fun stage => (stage.name, stage.isPushedDown)) ++ [("Source", false)]

/-- The pipeline for a reader, as a chain of calls. -/
def debugText (p : Pipeline σ R) : String :=
  "Source" ++ String.join (p.declared.map Stage.debugText)

end Pipeline

end IssueQuery

import IssueQuery.Error
import IssueQuery.Log

/-!
# What a compilation acts on

The compilation of a query runs actions of the host program and writes to the log, and it may fail.
Neither the state of the host nor the log goes back when it does.
-/

namespace IssueQuery

/-- The state of the host program and the log so far. -/
structure Context (σ : Type) where
  host : σ
  log : List LogEvent

namespace Context

variable {σ α : Type}

/-- Writes an event to the end of the log. -/
def note (event : LogEvent) : StateM (Context σ) Unit :=
  modify fun c => { c with log := c.log ++ [event] }

/-- Runs an action of the host program. -/
def onHost (action : StateM σ α) : StateM (Context σ) α := fun c =>
  let (a, host) := action c.host
  (a, { c with host })

end Context

/-- A computation on the context that may fail. -/
abbrev Compilation (σ : Type) := ExceptT Error (StateM (Context σ))

namespace Compilation

variable {σ α : Type}

/-- A log entry is no failure. -/
def note (event : LogEvent) : Compilation σ Unit := ExceptT.lift (Context.note event)

/-- An evaluation as a part of a compilation. -/
def ofEvaluation (e : Evaluation σ α) : Compilation σ α := fun c =>
  let (result, host) := e c.host
  (result.mapError Error.evaluation, { c with host })

end Compilation

end IssueQuery

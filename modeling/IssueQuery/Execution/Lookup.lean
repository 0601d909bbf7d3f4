import IssueQuery.Provider

/-!
# Looking up custom fields

A task that looks up a custom field takes it from the cache if it is there.  Otherwise it stands in
line for the cell; at the head of the line it asks the server, and its answer fills the cell for
all.  A failure concerns only the task that asked: the right to ask passes on, and the cell stays
vacant.
-/

namespace IssueQuery

/-- How far a lookup has come. -/
inductive Lookup where
  | fresh
  /-- The task stands in line. -/
  | queued
  /-- The task has the right to fill the cell and waits for the answer. -/
  | asking (reply : Activity (Option CustomField))

namespace Lookup

variable {σ : Type}

/-- Leaves the line of a cell.  If the task had the right to fill it, the next in line is woken. -/
def release (task : TaskId) (name : String) : StateM (World σ) Unit := do
  let cell := (← get).cache.cell name
  modify fun w => { w with cache := w.cache.leave name task }
  if cell.holder? = some task then
    World.wake ((← get).cache.cell name).holder?.toList

/-- Fills a cell and wakes all others in line. -/
def share (task : TaskId) (name : String) (field : CustomField) : StateM (World σ) Unit := do
  let others := ((← get).cache.cell name).line.filter (· ≠ task)
  modify fun w => { w with cache := w.cache.fill name field }
  World.wake others

/-- Goes on with the answer of the server. -/
def receive (task : TaskId) (name : String) (reply : Activity (Option CustomField)) :
    StateM (World σ) (Progress (Except Error CustomField) Lookup) := do
  match ← reply.poll task with
  | .pending rest => return .pending (.asking rest)
  | .ready (.ok (some field)) => do
    share task name field
    return .ready (.ok field)
  | .ready (.ok none) => do
    release task name
    return .ready (.error (.fieldNotFound name))
  | .ready (.error e) => do
    release task name
    return .ready (.error e)

/-- Asks the server. -/
def ask (source : FieldSource) (task : TaskId) (name : String) :
    StateM (World σ) (Progress (Except Error CustomField) Lookup) := do
  World.note (.populatingField name)
  modify fun w => { w with lookups := w.lookups ++ [name] }
  receive task name (source (← get).lookups)

/-- Takes the field from its cell, or asks if it is the task's turn. -/
def tryCell (source : FieldSource) (task : TaskId) (name : String) :
    StateM (World σ) (Progress (Except Error CustomField) Lookup) := do
  match (← get).cache.cell name with
  | .filled field => return .ready (.ok field)
  | .vacant line =>
    if line.head? = some task then ask source task name else return .pending .queued

/-- Goes on with a lookup. -/
def poll (source : FieldSource) (task : TaskId) (name : String) (lookup : Lookup) :
    StateM (World σ) (Progress (Except Error CustomField) Lookup) :=
  match lookup with
  | fresh => do
    modify fun w => { w with cache := w.cache.enter name task }
    tryCell source task name
  | queued => tryCell source task name
  | asking reply => receive task name reply

/-- Gives a lookup up. -/
def abandon (task : TaskId) (name : String) (lookup : Lookup) : StateM (World σ) Unit :=
  match lookup with
  | fresh => return ()
  | queued | asking _ => release task name

end Lookup

end IssueQuery

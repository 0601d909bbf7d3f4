import IssueQuery.Execution.Fetch

/-!
# Tasks

A task is something that a program waits for: a page and what is made of it, the lookup of a custom
field, the firing of a signal, or a signal that somebody else has to fire.
-/

namespace IssueQuery

/-- What is made of a page, such as the records that pass the local filters. -/
abbrev Completion (σ R α : Type) := Page R → Compilation σ α

/-- A task with results of type `α`, as far as it has come. -/
inductive Task (σ R α : Type) where
  | fetch (p : Pipeline σ R) (signal : Option Signal) (complete : Completion σ R α)
    (state : Fetch R)
  | lookup (name : String) (complete : CustomField → α) (state : Lookup)
  | fire (signal : Signal) (result : α)
  | await (signal : Signal) (result : α)

namespace Task

variable {σ R α : Type}

/-- Goes on with a task. -/
def poll (provider : Provider R) (id : TaskId) (task : Task σ R α) :
    StateM (World σ) (Progress (Except Error α) (Task σ R α)) :=
  match task with
  | fetch p signal complete state => do
    match ← state.poll provider id p signal with
    | .pending state => return .pending (fetch p signal complete state)
    | .ready (.error e) => return .ready (.error e)
    | .ready (.ok page) => return .ready (← World.onContext (complete page))
  | lookup name complete state => do
    match ← state.poll provider.source id name with
    | .pending state => return .pending (lookup name complete state)
    | .ready result => return .ready (result.map complete)
  | fire signal result => do
    World.fire signal
    return .ready (.ok result)
  | await signal result => do
    if ← World.pollCancellation id (some signal) then return .ready (.ok result)
    else return .pending (await signal result)

/-- Gives a task up; what it holds passes on. -/
def abandon (id : TaskId) (task : Task σ R α) : StateM (World σ) Unit := do
  match task with
  | fetch _ _ _ state => state.abandon id
  | lookup name _ state => state.abandon id name
  | fire _ _ | await _ _ => return ()

end Task

end IssueQuery

import IssueQuery.Execution.World

/-!
# Activities

An `Activity` is what is still left of the work that somebody else does for a task, such as the
answer to a request.  Polling goes on with it as far as possible: it may fire signals, it may pause
until the next poll, and it ends with a result, unless it hangs.
-/

namespace IssueQuery

/-- How far a poll has come: to a result, or to what is left to be done. -/
inductive Progress (ρ π : Type) where
  | ready (result : ρ)
  | pending (rest : π)

/-- What the surroundings do at a request, step by step between polls, until there is a result. -/
inductive Activity (α : Type) where
  | finish (result : Except Error α)
  | fire (signal : Signal) (next : Activity α)
  /-- Waits for the next poll, and asks for one. -/
  | pause (next : Activity α)
  /-- Never ends. -/
  | hang

/-- Goes on with an activity on behalf of a task. -/
def Activity.poll {σ α : Type} (task : TaskId) :
    Activity α → StateM (World σ) (Progress (Except Error α) (Activity α))
  | finish result => return .ready result
  | fire signal next => do
    World.fire signal
    next.poll task
  | pause next => do
    World.wake [task]
    return .pending next
  | hang => return .pending hang

end IssueQuery

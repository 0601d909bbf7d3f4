import IssueQuery.Context
import IssueQuery.CustomField

/-!
# The world that tasks act on

All tasks share one world: the context of compilations, the cache of custom fields, the record of
what was asked from the server, and the signals that cancel requests.  A task that has to wait
leaves its number behind, with a signal or in the line of a cell, and is woken when it can go on.
-/

namespace IssueQuery

/-- A signal that requests can be cancelled by.  Signals are told apart by their names. -/
abbrev Signal := String

/-- A request for a page. -/
structure FetchCall where
  jql : String
  maxResults : Option UInt32
  startAt : UInt32
  /-- Whether the signal of the request had fired when the request was made. -/
  cancelled : Bool
  deriving DecidableEq

/-- What all tasks share: the context of the compilations, the cache, the signals, and what the
server was asked for. -/
structure World (σ : Type) extends Context σ where
  cache : FieldCache
  /-- The requests for pages, in the order in which they were made. -/
  calls : List FetchCall
  /-- The names of the fields that the server was asked for, in order. -/
  lookups : List String
  fired : List Signal
  /-- The tasks to be woken when a signal fires. -/
  watchers : List (Signal × TaskId)
  /-- The tasks that were woken and have not been polled since. -/
  woken : List TaskId

namespace World

variable {σ α : Type}

/-- A world where nothing has happened yet. -/
def initial (host : σ) : World σ where
  host
  log := []
  cache := .empty
  calls := []
  lookups := []
  fired := []
  watchers := []
  woken := []

/-- Runs a computation on the context. -/
def onContext (action : StateM (Context σ) α) : StateM (World σ) α := fun w =>
  let (a, c) := action w.toContext
  (a, { w with toContext := c })

/-- Writes an event to the log. -/
def note (event : LogEvent) : StateM (World σ) Unit := onContext (Context.note event)

/-- Whether a signal has fired. -/
def hasFired (w : World σ) (signal : Signal) : Bool := w.fired.contains signal

/-- Whether a request is cancelled.  One without a signal never is. -/
def isCancelled (w : World σ) (signal : Option Signal) : Bool := signal.any w.hasFired

/-- Wakes tasks. -/
def wake (tasks : List TaskId) : StateM (World σ) Unit :=
  modify fun w => { w with woken := w.woken ++ tasks }

/-- Fires a signal and wakes all tasks that watch it. -/
def fire (signal : Signal) : StateM (World σ) Unit :=
  modify fun w => { w with
    fired := signal :: w.fired
    watchers := w.watchers.filter (·.1 ≠ signal)
    woken := w.woken ++ (w.watchers.filter (·.1 = signal)).map Prod.snd }

/-- Lets a task watch a signal. -/
def watch (signal : Signal) (task : TaskId) : StateM (World σ) Unit :=
  modify fun w => { w with watchers := w.watchers ++ [(signal, task)] }

/-- Lets a task watch no signal any more. -/
def unwatch (task : TaskId) : StateM (World σ) Unit :=
  modify fun w => { w with watchers := w.watchers.filter (·.2 ≠ task) }

/-- Takes note that a task is up and polled. -/
def rouse (task : TaskId) : StateM (World σ) Unit :=
  modify fun w => { w with woken := w.woken.filter (· ≠ task) }

/-- Takes note that a task is over: it watches nothing, and nothing wakes it any more. -/
def retire (task : TaskId) : StateM (World σ) Unit := do
  unwatch task
  rouse task

/-- Whether a request is cancelled; if not, the task watches the signal. -/
def pollCancellation (task : TaskId) (signal : Option Signal) : StateM (World σ) Bool := do
  if (← get).isCancelled signal then return true
  if let some s := signal then
    unwatch task
    watch s task
  return false

end World

end IssueQuery

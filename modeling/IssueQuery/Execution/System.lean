import IssueQuery.Execution.Task

/-!
# Systems of tasks

A system is a world with numbered tasks in it.  Its steps are to poll a task and to drop one, in any
order.  `System.run` is the order of the executor: it polls all unfinished tasks in rounds, from the
first to the last, until no task is left that was woken, and drops what is unfinished then.
-/

namespace IssueQuery

/-- A task of a system. -/
inductive Slot (σ R α : Type) where
  | running (task : Task σ R α)
  | finished (result : Except Error α)
  | dropped

/-- The result of a finished task. -/
def Slot.result? {σ R α : Type} : Slot σ R α → Option (Except Error α)
  | finished result => some result
  | _ => none

/-- A world and the tasks in it, each in its slot. -/
structure System (σ R α : Type) where
  world : World σ
  slots : List (Slot σ R α)

namespace System

variable {σ R α : Type}

/-- A world with tasks that have not begun. -/
def ofTasks (world : World σ) (tasks : List (Task σ R α)) : System σ R α where
  world
  slots := tasks.map .running

/-- Polls a task, unless it is finished or dropped. -/
def poll (provider : Provider R) (s : System σ R α) (id : TaskId) : System σ R α :=
  match s.slots[id]? with
  | some (.running task) =>
    let (progress, world) := (do World.rouse id; task.poll provider id).run s.world
    match progress with
    | .pending task => ⟨world, s.slots.set id (.running task)⟩
    | .ready result => ⟨((World.retire id).run world).2, s.slots.set id (.finished result)⟩
  | _ => s

/-- Drops a task, unless it is finished or dropped already. -/
def drop (s : System σ R α) (id : TaskId) : System σ R α :=
  match s.slots[id]? with
  | some (.running task) =>
    let (_, world) := (do task.abandon id; World.retire id).run s.world
    ⟨world, s.slots.set id .dropped⟩
  | _ => s

/-- Polls all tasks once. -/
def round (provider : Provider R) (s : System σ R α) : System σ R α :=
  (List.range s.slots.length).foldl (poll provider) s

/-- Polls all tasks in rounds until no task is woken, at most `rounds` times. -/
def rounds (provider : Provider R) (s : System σ R α) : Nat → System σ R α
  | 0 => s
  | n + 1 =>
    let s := s.round provider
    if s.world.woken.isEmpty then s else s.rounds provider n

/-- Drops all tasks. -/
def dropAll (s : System σ R α) : System σ R α := (List.range s.slots.length).foldl drop s

/-- Runs tasks together: their results, as far as they have any, and the world they leave. -/
def run (provider : Provider R) (rounds : Nat) (world : World σ) (tasks : List (Task σ R α)) :
    List (Option (Except Error α)) × World σ :=
  let s := (ofTasks world tasks).rounds provider rounds
  (s.slots.map Slot.result?, s.dropAll.world)

end System

end IssueQuery

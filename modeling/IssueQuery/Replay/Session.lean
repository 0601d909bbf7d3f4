import IssueQuery.Execution.System
import IssueQuery.Query
import IssueQuery.Replay.Host
import IssueQuery.Replay.Script

/-!
# Sessions

A session is a series of steps of the scripted host with one provider: it builds queries under
names, sets variables, looks at queries and at the cache, and waits for tasks, one at a time or
several together.  Each step gives its result and what happened in the course of it.
-/

namespace IssueQuery.Replay

/-- Pipelines of the scripted host. -/
abbrev HostPipeline := Pipeline Host Issue

/-- Queries of the scripted host. -/
abbrev HostQuery := Query Host Issue

/-- Tasks of the scripted host. -/
abbrev HostTask := Task Host Issue

/-- What a terminal of a query is asked for. -/
inductive TerminalKind where
  | page | toList | count | any | first | firstOrNone | single
  | selectKeys | selectVotes
  /-- The records one after the other, each in one more pair of parentheses. -/
  | fold

/-- Something that a step waits for. -/
inductive Awaited where
  | terminal (query : String) (kind : TerminalKind)
  /-- The page of a query under a signal that need not be its own. -/
  | fetch (query : String) (signal : Option Signal)
  /-- The records of a query under a signal that need not be its own. -/
  | executeLocal (query : String) (signal : Option Signal)
  | lookup (field : String)
  | cancel (signal : Signal)
  | wait (signal : Signal)

/-- What a session does next. -/
inductive Step where
  /-- Makes a query that asks for everything. -/
  | query (target : String)
  /-- Makes a query with one more stage. -/
  | declare (source target : String) (stage : Stage Host Issue)
  | withCancellation (source target : String) (signal : Signal)
  | clone (source target : String)
  | await (task : Awaited)
  /-- Waits for several tasks together. -/
  | join (tasks : List Awaited)
  | directive (query : String)
  | searchRequest (query : String)
  | stages (query : String)
  | debug (query : String)
  | provider
  | set (name : String) (v : Value)
  | isCancelled (signal : Signal)
  | cached (field : String)
  | insertAll (fields : List CustomField)
  | cache

/-- The result of a task. -/
inductive Answer where
  | page (page : Page Issue)
  | items (records : List Issue)
  | count (n : Nat)
  | any (found : Bool)
  | first (record : Option Issue)
  | single (record : Issue)
  | keys (keys : List String)
  | votes (votes : List Int)
  | folded (text : String)
  | field (field : CustomField)
  | cancelled

/-- The outcome of a task; none if it can never end. -/
abbrev Outcome := Option (Except Error Answer)

/-- The result of a step. -/
inductive Result where
  | pipeline (p : HostPipeline)
  | awaited (outcome : Outcome)
  | joined (outcomes : List Outcome)
  | directive (d : Except Error Directive)
  | searchRequest (r : Except Error SearchRequest)
  | stages (p : HostPipeline)
  | debug (q : HostQuery)
  | provider (p : Provider Issue)
  | set
  | isCancelled (b : Bool)
  | cached (field : Option CustomField)
  | added (b : Bool)
  | cache (cache : FieldCache)

/-- The result of a step and what happened in the course of it. -/
structure Report where
  result : Result
  trace : List String
  log : List LogEvent
  calls : List FetchCall
  lookups : List String

/-- The provider of a session and the greatest number of pauses in an answer of its server. -/
structure Setting where
  provider : Provider Issue
  longestPause : Nat

/-- The world of a session and the queries that it has named. -/
structure Session where
  world : World Host
  queries : Table HostQuery

namespace Session

/-- A session that has named no query yet. -/
def initial : Session := ⟨.initial {}, .empty⟩

/-- The query of a name; a name without a query stands for all records. -/
def queryOf (s : Session) (name : String) : HostQuery := (s.queries.get? name).getD .all

end Session

/-- The task of a terminal of a query. -/
def TerminalKind.task (kind : TerminalKind) (q : HostQuery) : HostTask Answer :=
  match kind with
  | page => q.page .page
  | toList => q.toList .items
  | count => q.count .count
  | any => q.any .any
  | first => q.first fun r => .first (some r)
  | firstOrNone => q.first? .first
  | single => q.single .single
  | selectKeys => q.select Issue.key .keys
  | selectVotes => q.select Issue.votes .votes
  | fold =>
    q.fold (fun text r => "(" ++ text ++ r.key ++ ":" ++ toString r.votes ++ ")") "<" .folded

/-- The task that a step waits for. -/
def Awaited.task (s : Session) : Awaited → HostTask Answer
  | terminal query kind => kind.task (s.queryOf query)
  | fetch query signal => .page (s.queryOf query).pipeline signal .page
  | executeLocal query signal =>
    .records (s.queryOf query).pipeline signal fun rs => .ok (.items rs)
  | lookup field => .lookup field .field .fresh
  | cancel signal => .fire signal .cancelled
  | wait signal => .await signal .cancelled

/-- The greatest number of requests that a task can make. -/
def Awaited.requests (s : Session) : Awaited → Nat
  | terminal query _ | fetch query _ | executeLocal query _ =>
    1 + (s.queryOf query).pipeline.indexers
  | lookup _ => 1
  | cancel _ | wait _ => 0

namespace Session

/-- A number of rounds that suffices for tasks.  Every round but the last wakes some task: by a
pause of an answer, by a signal that it fires, or when a task comes to its end with an answer. -/
def roundsFor (s : Session) (setting : Setting) (tasks : List Awaited) : Nat :=
  tasks.foldl (fun n task => n + 1 + task.requests s * (setting.longestPause + 2)) 1

/-- Waits for tasks together. -/
def awaitAll (setting : Setting) (s : Session) (tasks : List Awaited) : List Outcome × Session :=
  let (outcomes, world) :=
    System.run setting.provider (s.roundsFor setting tasks) s.world (tasks.map (Awaited.task s))
  (outcomes, { s with world })

/-- Stores a query under a name. -/
def store (s : Session) (target : String) (q : HostQuery) : Result × Session :=
  (.pipeline q.pipeline, { s with queries := s.queries.set target q })

/-- Runs a compilation in the world of the session; nothing is fetched. -/
def compile {α : Type} (s : Session) (action : Compilation Host α) : Except Error α × Session :=
  let (result, world) := World.onContext action s.world
  (result, { s with world })

/-- Takes one step. -/
def step (setting : Setting) (s : Session) : Step → Result × Session
  | .query target => s.store target .all
  | .declare source target stage => s.store target ((s.queryOf source).push stage)
  | .withCancellation source target signal =>
    s.store target ((s.queryOf source).withCancellation signal)
  | .clone source target => s.store target (s.queryOf source)
  | .await task =>
    let (outcomes, s) := s.awaitAll setting [task]
    (.awaited (outcomes.head?.getD none), s)
  | .join tasks =>
    let (outcomes, s) := s.awaitAll setting tasks
    (.joined outcomes, s)
  | .directive query =>
    let (d, s) := s.compile ((s.queryOf query).pipeline.toDirective setting.provider.fields)
    (.directive d, s)
  | .searchRequest query =>
    let (r, s) := s.compile (setting.provider.searchRequest (s.queryOf query).pipeline)
    (.searchRequest r, s)
  | .stages query => (.stages (s.queryOf query).pipeline, s)
  | .debug query => (.debug (s.queryOf query), s)
  | .provider => (.provider setting.provider, s)
  | .set name v => (.set, { s with world.host := s.world.host.set name v })
  | .isCancelled signal => (.isCancelled (s.world.hasFired signal), s)
  | .cached field => (.cached (s.world.cache.cached? field), s)
  | .insertAll fields =>
    let (cache, added) := s.world.cache.insertAll fields
    (.added added, { s with world.cache := cache })
  | .cache => (.cache s.world.cache, s)

/-- Takes one step and reports on it. -/
def report (setting : Setting) (s : Session) (step : Step) : Report × Session :=
  let (result, after) := s.step setting step
  ({ result
     trace := after.world.host.trace.drop s.world.host.trace.length
     log := after.world.log.drop s.world.log.length
     calls := after.world.calls.drop s.world.calls.length
     lookups := after.world.lookups.drop s.world.lookups.length }, after)

/-- Takes all steps and reports on each. -/
def run (setting : Setting) (s : Session) : List Step → List Report
  | [] => []
  | step :: steps =>
    let (report, s) := s.report setting step
    report :: s.run setting steps

end Session

end IssueQuery.Replay

import IssueQuery.Execution.Lookup
import IssueQuery.Compilation

/-!
# Fetching a page

A fetch compiles its pipeline, looks up the custom fields of the query one after the other, and
then makes one request.  Each step needs the one before it to succeed.  The signal is looked at
before the lookups, before the request, and whenever the lookups or the request have to wait; what
is ready at that moment counts all the same.
-/

namespace IssueQuery

/-- How far a fetch has come. -/
inductive Fetch (R : Type) where
  | fresh
  /-- The lookup of a field is under way, and others are to follow. -/
  | lookingUp (directive : Directive) (name : String) (lookup : Lookup) (rest : List String)
  | requesting (jql : String) (reply : Activity (Page R))

namespace Fetch

variable {σ R : Type}

/-- The outcome of a poll of a fetch. -/
abbrev Outcome (R : Type) := Progress (Except Error (Page R)) (Fetch R)

/-- The lookups that are left to be done. -/
structure Lookups where
  name : String
  lookup : Lookup
  rest : List String

/-- Goes on with the lookup of a field, and with the lookups of the others if there is an answer. -/
def pollLookups (source : FieldSource) (task : TaskId) (name : String) (lookup : Lookup)
    (rest : List String) : StateM (World σ) (Progress (Except Error Unit) Lookups) := do
  match ← lookup.poll source task name with
  | .pending lookup => return .pending ⟨name, lookup, rest⟩
  | .ready (.error e) => return .ready (.error e)
  | .ready (.ok _) =>
    match rest with
    | [] => return .ready (.ok ())
    | next :: rest => pollLookups source task next .fresh rest

/-- Goes on with the request, and gives it up if it has to wait and the signal has fired. -/
def awaitPage (task : TaskId) (signal : Option Signal) (jql : String)
    (reply : Activity (Page R)) : StateM (World σ) (Outcome R) := do
  match ← reply.poll task with
  | .ready result => return .ready result
  | .pending rest =>
    if ← World.pollCancellation task signal then
      World.note (.requestCancelled jql)
      return .ready (.error .cancelled)
    else return .pending (.requesting jql rest)

/-- Makes the request, unless the signal has fired. -/
def request (provider : Provider R) (task : TaskId) (signal : Option Signal) (d : Directive) :
    StateM (World σ) (Outcome R) := do
  World.note (.request provider.settings.tracesRequests d.jql d.maxResults d.firstRecord)
  if (← get).isCancelled signal then return .ready (.error .cancelled)
  modify fun w => { w with
    calls := w.calls ++ [⟨d.jql, d.maxResults, d.firstRecord, w.isCancelled signal⟩] }
  awaitPage task signal d.jql (provider.fetcher (← get).calls)

/-- Goes on after a poll of the lookups, and gives them up if they have to wait and the signal has
fired. -/
def afterLookups (provider : Provider R) (task : TaskId) (signal : Option Signal) (d : Directive)
    (progress : Progress (Except Error Unit) Lookups) : StateM (World σ) (Outcome R) := do
  match progress with
  | .ready (.error e) => return .ready (.error e)
  | .ready (.ok _) => request provider task signal d
  | .pending lookups =>
    if ← World.pollCancellation task signal then
      World.note .lookupCancelled
      lookups.lookup.abandon task lookups.name
      return .ready (.error .cancelled)
    else return .pending (.lookingUp d lookups.name lookups.lookup lookups.rest)

/-- Begins a fetch. -/
def start (provider : Provider R) (task : TaskId) (p : Pipeline σ R) (signal : Option Signal) :
    StateM (World σ) (Outcome R) := do
  match ← World.onContext (p.toDirective provider.fields) with
  | .error e => return .ready (.error e)
  | .ok d =>
    if (← get).isCancelled signal then return .ready (.error .cancelled)
    match provider.checksFields, d.customFields with
    | true, name :: rest =>
      afterLookups provider task signal d (← pollLookups provider.source task name .fresh rest)
    | _, _ => request provider task signal d

/-- Goes on with a fetch. -/
def poll (provider : Provider R) (task : TaskId) (p : Pipeline σ R) (signal : Option Signal)
    (fetch : Fetch R) : StateM (World σ) (Outcome R) :=
  match fetch with
  | fresh => start provider task p signal
  | lookingUp d name lookup rest => do
    afterLookups provider task signal d
      (← pollLookups provider.source task name lookup rest)
  | requesting jql reply => awaitPage task signal jql reply

/-- Gives a fetch up. -/
def abandon (task : TaskId) (fetch : Fetch R) : StateM (World σ) Unit :=
  match fetch with
  | lookingUp _ name lookup _ => lookup.abandon task name
  | fresh | requesting _ _ => return ()

end Fetch

end IssueQuery

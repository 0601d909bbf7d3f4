import IssueQuery.Provider

/-!
# Scripted servers

A script says what a server does at each of a series of requests.  When the script is at its end,
its last action is repeated.
-/

namespace IssueQuery.Replay

/-- What a server does at one request: it may fire a signal, then pauses some times, and then hangs
or ends with a result. -/
structure Action (α : Type) where
  fires : Option Signal
  pauses : Nat
  /-- The result, unless the request hangs. -/
  result : Option (Except Error α)

namespace Action

variable {α : Type}

/-- What is left of a request after it has fired its signal. -/
def afterFiring (a : Action α) : Activity α :=
  let last : Activity α := match a.result with
    | some result => .finish result
    | none => .hang
  Nat.repeat .pause a.pauses last

/-- What the server does at the request, step by step. -/
def activity (a : Action α) : Activity α :=
  match a.fires with
  | some signal => .fire signal a.afterFiring
  | none => a.afterFiring

end Action

/-- What a server does at its requests, one after the other. -/
abbrev Script (α : Type) := List (Action α)

namespace Script

variable {α : Type}

/-- The answer to a request, counted from `0`.  An empty script never answers. -/
def answer (script : Script α) (index : Nat) : Activity α :=
  match script[min index (script.length - 1)]? with
  | some action => action.activity
  | none => .hang

/-- The greatest number of pauses of an action. -/
def longestPause (script : Script α) : Nat := (script.map Action.pauses).foldl max 0

end Script

/-- The fetcher that acts by a script. -/
def scriptedFetcher {R : Type} (pages : Script (Page R)) : PageFetcher R := fun calls =>
  pages.answer (calls.length - 1)

/-- The source of fields that acts by a script for each name and knows no other name. -/
def scriptedSource (fields : Table (Script (Option CustomField))) : FieldSource := fun names =>
  match names.getLast? with
  | none => .hang
  | some name =>
    match fields.get? name with
    | some script => script.answer (names.count name - 1)
    | none => .finish (.ok none)

end IssueQuery.Replay

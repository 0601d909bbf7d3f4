/-!
# The log

The events that a query notes down while it is compiled and run, each with its level and text.
-/

namespace IssueQuery

/-- How prominent an event is. -/
inductive LogLevel where
  | trace | debug | info | warn
  deriving DecidableEq

/-- The level for a reader. -/
def LogLevel.name : LogLevel → String
  | trace => "TRACE"
  | debug => "DEBUG"
  | info => "INFO"
  | warn => "WARN"

/-- What a query notes down. -/
inductive LogEvent where
  /-- A limit that a later one overrides. -/
  | shadowedTake (kept ignored : UInt32)
  /-- A start that a later one overrides. -/
  | shadowedSkip (kept ignored : UInt32)
  | populatingField (name : String)
  | lookupCancelled
  /-- A request is about to be made; requests are more prominent when they are traced. -/
  | request (traced : Bool) (jql : String) (maxResults : Option UInt32) (startAt : UInt32)
  | requestCancelled (jql : String)
  | localStages (stages : Nat) (plan : String)
  | localFilter (records : Nat)
  deriving DecidableEq

namespace LogEvent

/-- The level of an event. -/
def level : LogEvent → LogLevel
  | shadowedTake _ _ | shadowedSkip _ _ => .warn
  | request traced _ _ _ => if traced then .info else .debug
  | populatingField _ | lookupCancelled | requestCancelled _ => .debug
  | localStages _ _ | localFilter _ => .trace

/-- A count that may be missing, in a message. -/
def countText : Option UInt32 → String
  | none => "None"
  | some n => "Some(" ++ toString n.toNat ++ ")"

/-- The warning about a stage that occurs more than once. -/
def shadowedText (stage : String) (kept ignored : UInt32) : String :=
  "Multiple " ++ stage ++ " stages in one query; keeping the last declared value " ++
    toString kept.toNat ++ ", ignoring " ++ toString ignored.toNat

/-- The event for a reader. -/
def message : LogEvent → String
  | shadowedTake kept ignored => shadowedText "Take" kept ignored
  | shadowedSkip kept ignored => shadowedText "Skip" kept ignored
  | populatingField name => "Populating custom field metadata for '" ++ name ++ "'"
  | lookupCancelled => "Custom field lookup cancelled"
  | request _ jql maxResults startAt =>
    "JQL request: '" ++ jql ++ "' (max_results: " ++ countText maxResults ++ ", start_at: " ++
      toString startAt.toNat ++ ")"
  | requestCancelled jql => "JQL request cancelled: '" ++ jql ++ "'"
  | localStages stages plan => "Running " ++ toString stages ++ " stage(s) locally: " ++ plan
  | localFilter records => "Applying local filter to " ++ toString records ++ " fetched records"

/-- The line of the log. -/
def text (event : LogEvent) : String := event.level.name ++ " " ++ event.message

end LogEvent

end IssueQuery

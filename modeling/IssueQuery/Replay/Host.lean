import IssueQuery.Field
import IssueQuery.LocalPlan

/-!
# A scripted host program

A host program whose functions are described by data.  Its state holds named variables and a trace,
to which each function adds a line before it does its work.  The records of this host are issues
with a key and a number of votes.
-/

namespace IssueQuery.Replay

/-- A record of the scripted server. -/
structure Issue where
  key : String
  votes : Int
  deriving DecidableEq

/-- The state of the host. -/
structure Host where
  bindings : Table Value := .empty
  trace : List String := []

namespace Host

/-- Sets a variable. -/
def set (host : Host) (name : String) (v : Value) : Host :=
  { host with bindings := host.bindings.set name v }

/-- Adds a line to the trace. -/
def record (host : Host) (line : String) : Host := { host with trace := host.trace ++ [line] }

end Host

/-- What a captured value does when it is read. -/
inductive Reading where
  | returns (v : Value)
  | fails (message : String)
  | valueOf (name : String)

/-- Reads a captured value. -/
def Reading.run (reading : Reading) (host : Host) : Except String Value :=
  match reading with
  | returns v => .ok v
  | fails message => .error message
  | valueOf name =>
    match host.bindings.get? name with
    | some v => .ok v
    | none => .error ("unset " ++ name)

/-- What a function does when it is called. -/
inductive Function where
  | returns (v : Value)
  | fails (message : String)
  | argument (index : Nat)
  /-- The number of arguments. -/
  | count
  /-- The texts of all arguments in a row; an argument without text gives its literal. -/
  | concat

/-- Calls a function. -/
def Function.run (function : Function) (args : List Value) : Except String Value :=
  match function with
  | returns v => .ok v
  | fails message => .error message
  | argument index =>
    match args[index]? with
    | some v => .ok v
    | none => .error ("no argument " ++ toString index)
  | count => .ok (.int (.ofNat args.length))
  | concat => .ok (.text (String.join (args.map Value.fieldName)))

/-- A captured value of the scripted host. -/
def captured (name : String) (reading : Reading) : Expr Host :=
  .captured name fun host => (reading.run host, host.record ("cap " ++ name))

/-- A value in the trace: its type and its literal. -/
def traceText (v : Value) : String := v.type.name ++ " " ++ v.jql

/-- A call of a function of the scripted host. -/
def call (name : String) (args : List (Expr Host)) (function : Function) : Expr Host :=
  .call name args fun values host =>
    (function.run values,
      host.record
        ("call " ++ name ++ "(" ++ String.intercalate ", " (values.map traceText) ++ ")"))

/-- A condition of the scripted host on an issue. -/
inductive IssueTest where
  | votesAbove (n : Int)
  | votesBelow (n : Int)
  | votesEven
  | keyDiffers (key : String)
  | keyStarts (start : String)
  | always
  | never

namespace IssueTest

/-- The name of a condition in the trace. -/
def name : IssueTest → String
  | votesAbove _ => "votes_gt"
  | votesBelow _ => "votes_lt"
  | votesEven => "votes_even"
  | keyDiffers _ => "key_ne"
  | keyStarts _ => "key_prefix"
  | always => "true"
  | never => "false"

/-- Whether an issue fulfils the condition. -/
def holds (test : IssueTest) (issue : Issue) : Bool :=
  match test with
  | votesAbove n => n < issue.votes
  | votesBelow n => issue.votes < n
  | votesEven => issue.votes % 2 == 0
  | keyDiffers key => issue.key != key
  | keyStarts start => start.toList.isPrefixOf issue.key.toList
  | always => true
  | never => false

/-- The condition as a local filter. -/
def predicate (test : IssueTest) : LocalPredicate Host Issue := fun issue host =>
  (test.holds issue, host.record ("local " ++ test.name ++ " " ++ issue.key))

end IssueTest

end IssueQuery.Replay

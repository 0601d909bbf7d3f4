import IssueQuery.Calendar
import IssueQuery.Numeric.Shortest
import IssueQuery.Expr.Folding
import IssueQuery.Json.Count
import IssueQuery.Json.Parser
import IssueQuery.Error
import IssueQuery.Log
import IssueQuery.Predicate
import IssueQuery.Pipeline
import IssueQuery.Compilation
import IssueQuery.LocalPlan
import IssueQuery.Search
import IssueQuery.Page
import IssueQuery.Replay.Host
import IssueQuery.Execution.System
import IssueQuery.Query
import IssueQuery.Replay.Session
import IssueQuery.Proofs.Outcome
import IssueQuery.Proofs.Expr.Folding
import IssueQuery.Proofs.Expr.ClosedParts
import IssueQuery.Proofs.Expr.Meaning
import IssueQuery.Proofs.Compilation.Declaration
import IssueQuery.Proofs.Compilation.Translation
import IssueQuery.Proofs.Compilation.Acceptance
import IssueQuery.Proofs.Compilation.Schedule
import IssueQuery.Proofs.Compilation.Overriding
import IssueQuery.Proofs.Compilation.Recording
import IssueQuery.Proofs.Expr.NormalForm
import IssueQuery.Proofs.Compilation.Commutation
import IssueQuery.Proofs.Text.Tokens
import IssueQuery.Proofs.Compilation.Exchange
import IssueQuery.Proofs.Compilation.CustomFields
import IssueQuery.Proofs.Text.Lexemes
import IssueQuery.Proofs.Text.Readability
import IssueQuery.Proofs.LocalPlan
import IssueQuery.Proofs.Execution.Moves
import IssueQuery.Proofs.Execution.TaskMoves
import IssueQuery.Proofs.Execution.History
import IssueQuery.Proofs.Execution.FetchCourse
import IssueQuery.Proofs.Execution.Cells
import IssueQuery.Proofs.Execution.Questions
import IssueQuery.Proofs.Execution.Succession
import IssueQuery.Proofs.Execution.Validation
import IssueQuery.Proofs.Execution.Cancellation
import IssueQuery.Proofs.Execution.Elsewhere
import IssueQuery.Proofs.Execution.Heeding
import IssueQuery.Proofs.Compilation.Answers
import IssueQuery.Proofs.Execution.RequestBody
import IssueQuery.Proofs.Execution.Enumeration
import IssueQuery.Proofs.Expr.FirstFailure
import IssueQuery.Proofs.Compilation.Predicates
import IssueQuery.Proofs.Expr.Arithmetic
import IssueQuery.Proofs.Numeric.Nearest
import IssueQuery.Proofs.Numeric.Conversion
import IssueQuery.Proofs.Expr.Ordering
import IssueQuery.Proofs.Compilation.Lockstep
import IssueQuery.Proofs.Compilation.Leaves
import IssueQuery.Proofs.Compilation.Opposition
import IssueQuery.Proofs.Compilation.Conversions
import IssueQuery.Proofs.Compilation.Joining
import IssueQuery.Proofs.Compilation.Registration
import IssueQuery.Proofs.Page
import IssueQuery.Proofs.Execution.Seeding
import IssueQuery.Proofs.Calendar.DayNumber
import IssueQuery.Proofs.Calendar.DateText
import IssueQuery.Proofs.Execution.Terminals

import IssueQuery.Directive

/-!
# Search requests

The settings of a provider and the body of the request that a transport sends to the server.
-/

namespace IssueQuery

/-- How requests are made. -/
structure Settings where
  /-- The size of a page when the query does not limit it. -/
  maxResultsPerRequest : UInt32 := 20
  /-- Whether the server shall check the query. -/
  validateQuery : Bool := true
  /-- Whether requests are prominent in the log. -/
  tracesRequests : Bool := false
  deriving DecidableEq

/-- The settings for a reader. -/
def Settings.debugText (s : Settings) : String :=
  "ProviderSettings \x7b max_results_per_request: " ++ toString s.maxResultsPerRequest.toNat ++
    ", validate_query: " ++ toString s.validateQuery ++
    ", enable_request_trace: " ++ toString s.tracesRequests ++ " \x7d"

/-- The body of a request for a page. -/
structure SearchRequest where
  jql : String
  startAt : UInt32
  maxResults : UInt32
  validateQuery : Bool
  deriving DecidableEq

namespace SearchRequest

/-- The request with the given arguments; without a limit the settings decide. -/
def ofArguments (jql : String) (maxResults : Option UInt32) (startAt : UInt32)
    (settings : Settings) : SearchRequest where
  jql
  startAt
  maxResults := maxResults.getD settings.maxResultsPerRequest
  validateQuery := settings.validateQuery

/-- The request for a directive. -/
def ofDirective (d : Directive) (settings : Settings) : SearchRequest :=
  ofArguments d.jql d.maxResults d.firstRecord settings

end SearchRequest

end IssueQuery

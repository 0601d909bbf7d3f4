import IssueQuery.Compilation
import IssueQuery.Execution.Activity
import IssueQuery.Page
import IssueQuery.Search

/-!
# Providers

A provider connects pipelines to a remote collection.  What the server does is up to the server: it
answers a request for a page after all requests so far, and a question about a custom field after
all questions so far, each by some activity.  `Provider.searchRequest` is the body that a transport
would send for a pipeline; nothing is sent for it.
-/

namespace IssueQuery

/-- The answer to the last of the requests so far. -/
abbrev PageFetcher (R : Type) := List FetchCall → Activity (Page R)

/-- The answer to the last of the questions so far; no field if the server does not know it. -/
abbrev FieldSource := List String → Activity (Option CustomField)

/-- The server as a query sees it, and how queries are written for it. -/
structure Provider (R : Type) where
  fetcher : PageFetcher R
  source : FieldSource
  /-- Whether custom fields are looked up before a request. -/
  checksFields : Bool
  fields : FieldRegistry := .issue
  settings : Settings := {}

/-- The body of the request for a pipeline. -/
def Provider.searchRequest {σ R : Type} (provider : Provider R) (p : Pipeline σ R) :
    Compilation σ SearchRequest :=
  return .ofDirective (← p.toDirective provider.fields) provider.settings

/-- The provider for a reader. -/
def Provider.debugText {R : Type} (p : Provider R) : String :=
  "QueryProvider \x7b fields: " ++ toString p.fields.size ++ ", custom_fields: " ++
    toString p.checksFields ++ ", settings: " ++ p.settings.debugText ++ " \x7d"

end IssueQuery

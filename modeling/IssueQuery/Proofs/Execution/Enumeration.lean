import IssueQuery.Proofs.Compilation.Answers
import IssueQuery.Proofs.Execution.Validation
import IssueQuery.Query

/-!
# Enumerations of a query

Each terminal of a query makes its own request; nothing is kept from one enumeration to the next.
An `Enumeration` is a terminal of a query with the whole history of the session around it: what has
happened before, such as other terminals with their pages and errors, signals that were fired and
fields that came into the cache, and what happens until the terminal is over.

`Query.enumerations_ask_alike` compares two enumerations of one query.  Their histories need not
have anything in common; if the host gives both the same answers and both reach the server, then
both make the same single request, that of a compilation from scratch.  Only the lookups of custom
fields may differ.

No enumeration has records without a request of its own (`Enumeration.calls_ne_nil_of_ok`).
-/

namespace IssueQuery

variable {σ R α β : Type} {q : Query σ R}

/-! ### Terminals -/

namespace Query

/-- The tasks that enumerate a query.  Its terminals all come down to its page or to its records; a
provider may also be asked directly for the page of the pipeline, or for what the local stages leave
of it. -/
inductive IsTerminal (q : Query σ R) : Task σ R α → Prop where
  | page (result : Page R → α) : IsTerminal q (q.page result)
  | records (result : List R → Except Error α) : IsTerminal q (q.records result)
  | pageOf (signal : Option Signal) (result : Page R → α) :
    IsTerminal q (.page q.pipeline signal result)
  | recordsOf (signal : Option Signal) (result : List R → Except Error α) :
    IsTerminal q (.records q.pipeline signal result)

/-- Every terminal fetches the page of the pipeline. -/
lemma IsTerminal.eq_fetch {task : Task σ R α} (h : q.IsTerminal task) :
    ∃ signal complete, task = .fetch q.pipeline signal complete .fresh := by
  cases h with
  | page result => exact ⟨_, _, rfl⟩
  | records result =>
    rw [Query.records]
    split
    · exact ⟨_, _, rfl⟩
    · exact ⟨_, _, rfl⟩
  | pageOf signal result => exact ⟨_, _, rfl⟩
  | recordsOf signal result => exact ⟨_, _, rfl⟩

end Query

/-! ### What a fetch has to do with custom fields -/

/-- All that a lookup shows is about its own name. -/
lemma Lookup.Shown.name? {name : String} {events : List Event}
    {progress : Progress (Except Error CustomField) Lookup} (h : Shown name events progress) :
    ∀ event ∈ events, event.name? = some name := by
  cases h with
  | underWay lookup => cases lookup <;> simp [Lookup.shown, Event.name?]
  | found field | answered field | failed e => simp [Event.name?]

/-- All that is shown by lookups is about one of the names. -/
lemma LookedUp.exists_name {names : List String} {shown : List Event} (h : LookedUp names shown) :
    ∀ event ∈ shown, ∃ name ∈ names, event.name? = some name := by
  induction h with
  | nil => exact List.forall_mem_nil _
  | @snoc names shown events last field _ hlast ih =>
    intro event hevent
    rcases List.mem_append.mp hevent with hearlier | hlater
    · obtain ⟨name, hname, habout⟩ := ih event hearlier
      exact ⟨name, List.mem_append_left [last] hname, habout⟩
    · exact ⟨last, List.mem_append_right names (List.mem_singleton_self last),
        hlast.name? event hlater⟩

/-- Only custom fields of the directive are looked up. -/
lemma Provider.fieldsToLookUp_subset (provider : Provider R) (d : Directive) :
    provider.fieldsToLookUp d ⊆ d.customFields := by
  rw [fieldsToLookUp]
  split
  · exact List.Subset.refl _
  · exact List.nil_subset _

/-! ### Enumerations -/

/-- A terminal of a query in the history of a session. -/
structure Enumeration (q : Query σ R) (α : Type) where
  providers : TaskId → Provider R
  /-- The session at its beginning. -/
  origin : System σ R α
  /-- All that happens before the terminal is polled first. -/
  earlier : List (System.Action σ R α)
  id : TaskId
  task : Task σ R α
  /-- All that happens after its first poll. -/
  later : List (System.Action σ R α)
  entries : List System.Entry
  isTerminal : q.IsTerminal task
  running : (origin.after providers earlier).slots[id]? = some (.running task)
  history : System.History providers (origin.after providers earlier) (.poll id :: later) entries

namespace Enumeration

/-- The session when the terminal begins. -/
def start (e : Enumeration q α) : System σ R α := e.origin.after e.providers e.earlier

/-- The session at the end of the history. -/
def finish (e : Enumeration q α) : System σ R α := e.start.after e.providers (.poll e.id :: e.later)

/-- The members that the query is compiled with. -/
def registry (e : Enumeration q α) : FieldRegistry := (e.providers e.id).fields

/-- What the host answers when the terminal compiles the query. -/
def answers (e : Enumeration q α) : List Answer :=
  q.pipeline.answers e.registry e.start.world.toContext

/-- What the terminal shows. -/
def shown (e : Enumeration q α) : List Event := System.eventsOf e.id e.entries

/-- The requests for a page that the terminal makes. -/
def calls (e : Enumeration q α) : List FetchCall := e.shown.filterMap Event.call?

/-- An enumeration makes the request for a directive. -/
structure AsksFor (e : Enumeration q α) (d : Directive) : Prop where
  /-- There is one request, for the text, the limit and the start of the directive. -/
  calls : e.calls = [⟨d.jql, d.maxResults, d.startAt.getD 0, false⟩]
  /-- Besides the request there are only lookups of custom fields of the directive, before it. -/
  lookups : ∃ lookups, e.shown = lookups ++ [.requested (Fetch.callFor d)] ∧
    ∀ event ∈ lookups, ∃ name ∈ d.customFields, event.name? = some name
  /-- The server is sent the requests that the history shows and no others. -/
  sent : e.finish.world.calls =
    e.start.world.calls ++ (e.entries.map Prod.snd).filterMap Event.call?

variable {e : Enumeration q α}

/-- A terminal ends at its first poll with an error and shows nothing, or it keeps the course of a
fetch for a directive. -/
lemma exists_course (e : Enumeration q α) :
    ∃ slot, e.finish.slots[e.id]? = some slot ∧
      ((e.shown = [] ∧ ∃ error, slot = .finished (.error error)) ∨
        ∃ signal complete d w,
          (outcome (q.pipeline.toDirective e.registry) e.start.world.toContext).1 = .ok d ∧
          Fetch.Course q.pipeline signal complete d ((e.providers e.id).fieldsToLookUp d) e.shown
            (.slot slot) w) := by
  obtain ⟨signal, complete, htask⟩ := e.isTerminal.eq_fetch
  have hrunning := e.running
  rw [htask] at hrunning
  obtain ⟨slot, hslot, hend | ⟨d, w, hcompile, hcourse⟩⟩ := e.history.exists_course hrunning
  · exact ⟨slot, hslot, .inl hend⟩
  · exact ⟨slot, hslot, .inr ⟨signal, complete, d, w, hcompile, hcourse⟩⟩

/-- An enumeration that reaches the server has compiled the query and asks for what came out. -/
lemma exists_asksFor (hcalls : e.calls ≠ []) :
    ∃ d, (outcome (q.pipeline.toDirective e.registry) e.start.world.toContext).1 = .ok d ∧
      e.AsksFor d := by
  obtain ⟨slot, -, ⟨hnone, -⟩ | ⟨signal, complete, d, w, hcompile, hcourse⟩⟩ := e.exists_course
  · rw [calls, hnone] at hcalls
    exact absurd rfl hcalls
  · obtain ⟨lookups, hall, hshown⟩ := hcourse.exists_lookedUp hcalls
    refine ⟨d, hcompile, hcourse.filterMap_call?.resolve_left hcalls,
      ⟨lookups, hshown, fun event hevent => ?_⟩, e.history.records.calls⟩
    obtain ⟨name, hname, habout⟩ := hall.exists_name event hevent
    exact ⟨name, (e.providers e.id).fieldsToLookUp_subset d hname, habout⟩

/-- A terminal that is polled once enumerates the query. -/
lemma exists_of_poll {providers : TaskId → Provider R} {origin : System σ R α}
    {earlier : List (System.Action σ R α)} {id : TaskId} {task : Task σ R α}
    (hterminal : q.IsTerminal task)
    (hrunning : (origin.after providers earlier).slots[id]? = some (.running task)) :
    ∃ e : Enumeration q α, e.start = origin.after providers earlier ∧
      e.registry = (providers id).fields ∧
      ((origin.after providers earlier).poll (providers id) id).world.calls =
        (origin.after providers earlier).world.calls ++ e.calls := by
  obtain ⟨entries, hhistory, hcalls⟩ := System.exists_history_of_poll hrunning
  exact ⟨⟨providers, origin, earlier, id, task, [], entries, hterminal, hrunning, hhistory⟩, rfl,
    rfl, hcalls⟩

/-- What a terminal hands out was fetched by it. -/
theorem calls_ne_nil_of_ok {result : α}
    (hok : e.finish.slots[e.id]? = some (.finished (.ok result))) : e.calls ≠ [] := by
  obtain ⟨slot, hslot, hcourse⟩ := e.exists_course
  obtain rfl := Option.some.inj (hok.symm.trans hslot)
  obtain ⟨-, error, herror⟩ | ⟨signal, complete, d, w, -, hcourse⟩ := hcourse
  · cases herror
  · rw [calls]
    generalize e.shown = shown at hcourse
    cases hcourse with
    | requested hall => simp [Event.call?]

end Enumeration

/-! ### The result -/

/-- Two enumerations of a query, whatever the histories before them are: if the host gives the same
answers to the compilation and both reach the server, then both make one request, with the same
text, limit and start.  It is the one that the query compiles to anywhere with these answers.  All
else that is shown are lookups of custom fields. -/
theorem Query.enumerations_ask_alike (e : Enumeration q α) (other : Enumeration q β)
    (hregistry : e.registry = other.registry) (hanswers : e.answers = other.answers)
    (hcalls : e.calls ≠ []) (hothers : other.calls ≠ []) :
    ∃ d, (∀ c, q.pipeline.answers e.registry c = e.answers →
        (outcome (q.pipeline.toDirective e.registry) c).1 = .ok d) ∧
      e.AsksFor d ∧ other.AsksFor d := by
  obtain ⟨d, hcompile, hasks⟩ := e.exists_asksFor hcalls
  obtain ⟨d', hcompile', hasks'⟩ := other.exists_asksFor hothers
  have hafresh (c : Context σ) (hc : q.pipeline.answers e.registry c = e.answers) :
      (outcome (q.pipeline.toDirective e.registry) c).1 = .ok d :=
    (Pipeline.toDirective_congr hc).trans hcompile
  -- The other enumeration gets the same answers, so it compiles to the same directive.
  have hother : q.pipeline.answers e.registry other.start.world.toContext = e.answers := by
    rw [hanswers, hregistry, Enumeration.answers]
  have hsame : (Except.ok d : Except Error Directive) = .ok d' := by
    rw [← hafresh _ hother, hregistry, hcompile']
  obtain rfl := Except.ok.inj hsame
  exact ⟨d, hafresh, hasks, hasks'⟩

/-- A server that fails on its first request. -/
def recoveringProvider : Provider Nat where
  fetcher calls := .finish (if calls.length = 1 then .error (.fetch "down") else .ok ⟨[1], 0, 1, 1⟩)
  source names := .finish (.ok (some ⟨"f1", names.getLastD "", none⟩))
  checksFields := true

/-- A query with a custom field, and with a number that the host counts up when it is asked. -/
def votesQuery : Query Nat Nat :=
  ((Query.all.filter (.binary .equal (.customField "Team") (.constant (.text "x")))).filter
    (.binary .greaterThan (.field "Votes")
      (.captured "least" fun n => (.ok (.int (.ofNat n)), n + 1)))).take 5

/-- A session that begins with a terminal of the query. -/
def votesSession : System Nat Nat (List Nat) :=
  .ofTasks (.initial 2) [votesQuery.toList id]

/-- The first terminal fails, but it has brought the field into the cache and made the host count
up.  The host is set back, and another terminal comes in. -/
def votesFailure : List (System.Action Nat Nat (List Nat)) :=
  [.poll 0, .host fun _ => 2, .spawn (votesQuery.page Page.items) trivial]

/-- A terminal fails on its request; with the field in the cache by then and the host set back, the
next one makes the same request again. -/
theorem Query.enumerations_ask_alike_after_failure :
    ∃ e other : Enumeration votesQuery (List Nat),
      e.start = votesSession ∧
      other.start = votesSession.after (fun _ => recoveringProvider) votesFailure ∧
      other.start.world.calls = e.calls ∧
      other.start.world.cache.cached? "Team" = some ⟨"f1", "Team", none⟩ ∧
      e.calls = [⟨"\"Team\" ~ \"x\" and Votes > 2", some 5, 0, false⟩] ∧
      other.calls = e.calls := by
  have hfirst : (votesSession.after (fun _ => recoveringProvider) []).slots[0]? =
      some (.running (votesQuery.toList id)) := rfl
  have hsecond : (votesSession.after (fun _ => recoveringProvider) votesFailure).slots[1]? =
      some (.running (votesQuery.page Page.items)) := by
    cbv
  obtain ⟨e, hstart, hregistry, hrecord⟩ :=
    Enumeration.exists_of_poll (q := votesQuery) (.records _) hfirst
  obtain ⟨other, hstart', hregistry', hrecord'⟩ :=
    Enumeration.exists_of_poll (q := votesQuery) (.page _) hsecond
  rw [System.after, List.foldl_nil] at hstart hrecord
  -- The host answers alike, since it was set back.
  have hanswers : e.answers = other.answers := by
    rw [Enumeration.answers, Enumeration.answers, hregistry, hregistry', hstart, hstart']
    cbv
  have hcalls : e.calls = [⟨"\"Team\" ~ \"x\" and Votes > 2", some 5, 0, false⟩] := by
    have hpolled : (votesSession.poll recoveringProvider 0).world.calls =
        [⟨"\"Team\" ~ \"x\" and Votes > 2", some 5, 0, false⟩] := by
      cbv
    exact hrecord.symm.trans hpolled
  have hothers : other.calls ≠ [] := by
    intro hnone
    have hmore : ((votesSession.after (fun _ => recoveringProvider) votesFailure).poll
        recoveringProvider 1).world.calls ≠
        (votesSession.after (fun _ => recoveringProvider) votesFailure).world.calls := by
      cbv
      simp
    rw [hnone, List.append_nil] at hrecord'
    exact hmore hrecord'
  obtain ⟨d, -, hasks, hasks'⟩ := Query.enumerations_ask_alike e other
    (hregistry.trans hregistry'.symm) hanswers (by simp [hcalls]) hothers
  refine ⟨e, other, hstart, hstart', ?_, ?_, hcalls, hasks'.calls.trans hasks.calls.symm⟩
  · rw [hcalls, hstart']
    cbv
  · rw [hstart']
    cbv

end IssueQuery

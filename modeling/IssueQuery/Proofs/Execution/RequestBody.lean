import IssueQuery.Proofs.Compilation.Answers
import IssueQuery.Proofs.Execution.Heeding
import IssueQuery.Proofs.Execution.Validation

/-!
# The body of a request

`Provider.searchRequest` compiles a pipeline to the body that a transport would send, and a fetch
compiles the same pipeline to the arguments of its call.  The two compilations are apart in time,
but they have the same result as long as the host gives the same answers
(`Pipeline.toDirective_congr`).

A call is traced back to its announcement through the whole history of a fetch.
`System.History.announced` says so: among the entries that a fetch has written to the log in its
polls, up to the call, there is one announcement, it comes last, and it is that of the call.
`Provider.searchRequest_agrees_with_fetch` is the result.
-/

namespace IssueQuery

variable {σ R α : Type}

/-- The result of the compilation of a body is that of the compilation of the directive. -/
lemma Provider.outcome_searchRequest_fst (provider : Provider R) (p : Pipeline σ R)
    (c : Context σ) :
    (outcome (provider.searchRequest p) c).1 =
      (outcome (p.toDirective provider.fields) c).1.map (.ofDirective · provider.settings) := by
  rw [searchRequest, ← map_eq_pure_bind, outcome_map]

namespace System

variable {providers : TaskId → Provider R} {provider : Provider R} {s : System σ R α} {id : TaskId}
  {p : Pipeline σ R} {signal : Option Signal} {complete : Completion σ R α} {state : Fetch R}
  {call : FetchCall} {action : Action σ R α} {actions : List (Action σ R α)} {entries : List Entry}

/-! ### What a task writes to the log -/

/-- The entries that an action adds to the log, if it is a poll of the task. -/
def noted (providers : TaskId → Provider R) (id : TaskId) (s : System σ R α) :
    Action σ R α → List LogEvent
  | .poll other =>
    if other = id then (s.poll (providers id) id).world.log.drop s.world.log.length else []
  | _ => []

/-- All entries that a task writes to the log in its polls. -/
def notedAll (providers : TaskId → Provider R) (id : TaskId) :
    System σ R α → List (Action σ R α) → List LogEvent
  | _, [] => []
  | s, action :: actions =>
    s.noted providers id action ++ notedAll providers id (s.act providers action) actions

/-- The next poll of a fetch is the one with a call.  Of the entries that the fetch has written, the
earlier ones and those before the call, only the last one is an announcement, that of the call; then
the call is made and the page is awaited. -/
inductive Announced (provider : Provider R) (id : TaskId) (p : Pipeline σ R)
    (signal : Option Signal) (complete : Completion σ R α) (call : FetchCall) (s : System σ R α)
    (earlier : List LogEvent) : Prop where
  | intro {state : Fetch R} {w : World σ} {notes : List LogEvent} :
    s.slots[id]? = some (.running (.fetch p signal complete state)) →
      w.calls = s.world.calls →
      w.log = s.world.log ++ notes ++ [provider.announcement call] →
      (∀ note ∈ earlier ++ notes, note.isRequest = false) →
      (do World.rouse id; state.poll provider id p signal).run s.world =
        (Fetch.awaitPage id signal call.jql (provider.fetcher (w.calls ++ [call]))).run
          { w with calls := w.calls ++ [call] } →
      Announced provider id p signal complete call s earlier

/-- What was written before. -/
lemma Announced.of_append {before earlier : List LogEvent}
    (h : Announced provider id p signal complete call s earlier)
    (hbefore : ∀ note ∈ before, note.isRequest = false) :
    Announced provider id p signal complete call s (before ++ earlier) := by
  obtain ⟨hslot, hcalls, hlog, hnotes, hpoll⟩ := h
  refine .intro hslot hcalls hlog (fun note hnote => ?_) hpoll
  rw [List.append_assoc] at hnote
  exact (List.mem_append.mp hnote).elim (hbefore note) (hnotes note)

/-! ### Actions -/

/-- An action that is not about a task shows nothing of it. -/
lemma Shows.eventsOf_eq_nil (h : Shows providers s action entries) (hpoll : action ≠ .poll id)
    (hdrop : action ≠ .drop id) : eventsOf id entries = [] := by
  cases h with
  | spawn task isNew => rfl
  | @poll other events progress hturn =>
    have hother : some other ≠ some id := fun h => hpoll (congrArg _ (Option.some.inj h))
    exact eventsOf_map_of_ne hother events
  | @drop other task hslot =>
    have hother : some other ≠ some id := fun h => hdrop (congrArg _ (Option.some.inj h))
    exact eventsOf_map_of_ne hother _
  | pollOver hover => rfl
  | dropOver hover => rfl
  | insert fields =>
    rw [eventsOf, List.filterMap_map]
    simp
  | fire signal => rfl
  | host change => rfl

/-- An action that is no poll of the task notes nothing for it. -/
lemma noted_of_ne (hpoll : action ≠ .poll id) : s.noted providers id action = [] := by
  cases action with
  | poll other =>
    have hother : other ≠ id := fun h => hpoll (congrArg _ h)
    exact if_neg hother
  | _ => rfl

/-- A fetch that is dropped shows no request. -/
lemma Shows.calls_of_drop (h : Shows providers s (.drop id) entries) :
    (eventsOf id entries).filterMap Event.call? = [] := by
  cases h with
  | drop hslot =>
    rw [eventsOf_map_self]
    exact (Place.filterMap_abandonment _).1
  | dropOver hover => rfl

/-- A poll of a fetch either requests nothing and adds no announcement, unless it brings the fetch
to its end, or it is the one with the call. -/
lemma Turn.announces {events : List Event} {slot : Slot σ R α}
    (h : Turn provider id s events slot (s.poll provider id))
    (hslot : s.slots[id]? = some (.running (.fetch p signal complete state))) :
    (events.filterMap Event.call? = [] ∧ ((∀ task, slot ≠ .running task) ∨
      (∃ state', slot = .running (.fetch p signal complete state')) ∧
        ∃ notes, (s.poll provider id).world.log = s.world.log ++ notes ∧
          ∀ note ∈ notes, note.isRequest = false)) ∨
    ∃ call, events.filterMap Event.call? = [call] ∧
      Announced provider id p signal complete call s [] := by
  obtain ⟨o, w, hpoll⟩ : ∃ o w,
      (do World.rouse id; state.poll provider id p signal).run s.world = (o, w) := ⟨_, _, rfl⟩
  have hstate : (state.poll provider id p signal).run ((World.rouse id).run s.world).2 = (o, w) :=
    hpoll
  obtain ⟨hcalls, slot', hslot', hshape⟩ := exists_slot_of_poll hslot hpoll
  obtain rfl : slot = slot' := Option.some.inj (h.getElem?_self.symm.trans hslot')
  have hrecords : w.calls = s.world.calls ++ events.filterMap Event.call? :=
    hcalls.symm.trans h.records.calls
  have hnone (hsame : w.calls = s.world.calls) : events.filterMap Event.call? = [] := by
    rw [hsame] at hrecords
    simpa using hrecords
  cases Fetch.polled hstate with
  | unrequested hquiet =>
    refine .inl ⟨hnone hquiet.calls, ?_⟩
    rcases o with (e | page) | state'
    · exact .inl (by simp [hshape])
    · exact .inl (by simp [hshape])
    · obtain ⟨hrunning, hworld⟩ := hshape
      rw [hworld]
      exact .inr ⟨⟨state', hrunning⟩, hquiet.log⟩
  | cancelled hsame => exact .inl ⟨hnone hsame, .inl (by simp [hshape])⟩
  | @called call w₁ _ _ hannounces hawait =>
    right
    have hsame : w₁.calls = s.world.calls := hannounces.calls
    have hlast : w.calls = s.world.calls ++ [call] := by
      rw [(Fetch.unrequested_of_awaitPage hawait).calls, hsame]
    obtain ⟨notes, hlog, hnotes⟩ := hannounces.log
    refine ⟨call, ?_, .intro hslot hsame hlog hnotes (hpoll.trans hawait.symm)⟩
    exact List.append_cancel_left (hrecords.symm.trans hlast)

/-! ### Histories -/

/-- A call of a fetch was announced: the poll with the call follows after some actions in which the
fetch has written no announcement. -/
theorem History.announced (h : History providers s actions entries)
    (hslot : s.slots[id]? = some (.running (.fetch p signal complete state)))
    (hcall : (eventsOf id entries).filterMap Event.call? = [call]) :
    ∃ before after, actions = before ++ .poll id :: after ∧
      Announced (providers id) id p signal complete call (s.after providers before)
        (s.notedAll providers id before) := by
  induction h generalizing state with
  | nil s => simp [eventsOf] at hcall
  | @cons s action actions entries later hfirst hlater ih =>
    rw [eventsOf_append, List.filterMap_append] at hcall
    -- A fetch that is over makes no call any more.
    have hover {slot : Slot σ R α}
        (hnext : (s.act providers action).slots[id]? = some slot)
        (hrunning : ∀ task, slot ≠ .running task)
        (hnone : (eventsOf id entries).filterMap Event.call? = []) : False := by
      obtain ⟨-, hrest⟩ := hlater.over hnext hrunning
      simp [hnone, hrest] at hcall
    -- Otherwise the poll with the call is still to come.
    have hlaterCall {state' : Fetch R}
        (hnext : (s.act providers action).slots[id]? =
          some (.running (.fetch p signal complete state')))
        (hnone : (eventsOf id entries).filterMap Event.call? = [])
        (hnotes : ∀ note ∈ s.noted providers id action, note.isRequest = false) :
        ∃ before after, action :: actions = before ++ .poll id :: after ∧
          Announced (providers id) id p signal complete call (s.after providers before)
            (s.notedAll providers id before) := by
      rw [hnone, List.nil_append] at hcall
      obtain ⟨before, after, rfl, hannounced⟩ := ih hnext hcall
      exact ⟨action :: before, after, rfl, hannounced.of_append hnotes⟩
    by_cases hpoll : action = .poll id
    · subst hpoll
      cases hfirst with
      | pollOver hidle => exact absurd hslot (hidle _)
      | @poll _ events progress hturn =>
        have hnext := hturn.getElem?_self
        rw [eventsOf_map_self] at hcall hover hlaterCall
        rcases hturn.announces hslot with ⟨hnone, hend | ⟨⟨state', hrunning⟩, hnotes⟩⟩ |
          ⟨call', hcall', hannounced⟩
        · exact (hover hnext hend hnone).elim
        · obtain ⟨notes, hlog, hnotes⟩ := hnotes
          rw [hrunning] at hnext
          refine hlaterCall hnext hnone ?_
          rw [noted, if_pos rfl, hlog, List.drop_left]
          exact hnotes
        · rw [hcall', List.singleton_append, List.cons.injEq] at hcall
          obtain ⟨rfl, -⟩ := hcall
          exact ⟨[], actions, rfl, hannounced⟩
    · by_cases hdrop : action = .drop id
      · subst hdrop
        have hnext := (turn_of_drop (providers id) hslot).getElem?_self
        exact (hover hnext (by simp) hfirst.calls_of_drop).elim
      · refine hlaterCall (getElem?_act providers hslot hpoll hdrop) ?_ ?_
        · rw [hfirst.eventsOf_eq_nil hpoll hdrop]
          rfl
        · rw [noted_of_ne hpoll]
          exact List.forall_mem_nil _

end System

/-! ### The result -/

/-- The body of the request for a pipeline and the call that a fetch of the pipeline makes agree, as
long as the host gives the same answers.

* The body is compiled exactly when the directive is, and otherwise both have the same error.
* When a fetch makes a call, the body is the one for the arguments of the call.
* Right before the call the fetch has announced it, and up to then it has written no other
  announcement to the log.  The announcement shows the three arguments, at the level that the
  settings ask for.  After the call nothing is announced. -/
theorem Provider.searchRequest_agrees_with_fetch (provider : Provider R) (p : Pipeline σ R) :
    (∀ c c', p.answers provider.fields c = p.answers provider.fields c' →
      ((∃ request, (outcome (provider.searchRequest p) c).1 = .ok request) ↔
        ∃ d, (outcome (p.toDirective provider.fields) c').1 = .ok d) ∧
      ∀ e, (outcome (provider.searchRequest p) c).1 = .error e ↔
        (outcome (p.toDirective provider.fields) c').1 = .error e) ∧
    ∀ {α : Type} {providers : TaskId → Provider R} {s : System σ R α} {id : TaskId}
      {signal : Option Signal} {complete : Completion σ R α} {actions : List (System.Action σ R α)}
      {entries : List System.Entry} {call : FetchCall},
      providers id = provider →
      System.History providers s (.poll id :: actions) entries →
      s.slots[id]? = some (.running (.fetch p signal complete .fresh)) →
      .requested call ∈ System.eventsOf id entries →
      (∀ c, p.answers provider.fields c = p.answers provider.fields s.world.toContext →
        (outcome (provider.searchRequest p) c).1 =
          .ok (.ofArguments call.jql call.maxResults call.startAt provider.settings)) ∧
      (∃ before after, .poll id :: actions = before ++ .poll id :: after ∧
        System.Announced provider id p signal complete call (s.after providers before)
          (s.notedAll providers id before)) ∧
      (provider.announcement call).level =
        (if provider.settings.tracesRequests then .info else .debug) ∧
      (provider.announcement call).message = "JQL request: '" ++ call.jql ++ "' (max_results: " ++
        LogEvent.countText call.maxResults ++ ", start_at: " ++ toString call.startAt.toNat ++ ")" ∧
      ∀ {reply : Activity (Page R)} {w w' : World σ} {o : Fetch.Outcome R},
        (Fetch.awaitPage id signal call.jql reply).run w = (o, w') → w.Unrequested w' := by
  constructor
  · intro c c' hanswers
    rw [provider.outcome_searchRequest_fst, Pipeline.toDirective_congr hanswers]
    cases (outcome (p.toDirective provider.fields) c').1 <;> simp [Except.map]
  · rintro α providers s id signal complete actions entries call rfl hhistory hslot hrequested
    obtain ⟨d, slot, w, hcompile, hcourse⟩ :=
      hhistory.exists_course_of_requested hslot hrequested
    have hmem : call ∈ (System.eventsOf id entries).filterMap Event.call? :=
      Event.mem_filterMap_call?.mpr hrequested
    have honly : (System.eventsOf id entries).filterMap Event.call? = [Fetch.callFor d] :=
      hcourse.filterMap_call?.resolve_left (List.ne_nil_of_mem hmem)
    obtain rfl : call = Fetch.callFor d := by
      rw [honly] at hmem
      exact List.mem_singleton.mp hmem
    refine ⟨fun c hanswers => ?_, hhistory.announced hslot honly, rfl, rfl,
      Fetch.unrequested_of_awaitPage⟩
    rw [Provider.outcome_searchRequest_fst, Pipeline.toDirective_congr hanswers, hcompile]
    rfl

/-- A provider that traces its requests. -/
def tracingProvider : Provider Nat where
  fetcher _ := .finish (.ok ⟨[], 0, 0, 0⟩)
  source _ := .hang
  checksFields := false
  settings := { tracesRequests := true }

/-- A query with a limit that does not count, one of zero, and a number that the host counts up when
it is asked. -/
def countedQuery : Pipeline Nat Nat :=
  .ofDeclared [
    .take 5,
    .filter (.binary .greaterThan (.field "Votes")
      (.captured "least" fun n => (.ok (.int (.ofNat n)), n + 1))),
    .skip 3,
    .take 0]

/-- The fetch of the query as the only task. -/
def countedSystem : System Nat Nat (List Nat) :=
  .ofTasks (.initial 2) [.fetch countedQuery none (fun page => pure page.items) .fresh]

/-- The body is compiled later, when the host has counted down again. -/
theorem Provider.searchRequest_agrees_with_fetch_counted :
    ∃ entries : List System.Entry,
      System.History (fun _ => tracingProvider) countedSystem [.poll 0] entries ∧
      .requested ⟨"Votes > 2", some 0, 3, false⟩ ∈ System.eventsOf 0 entries ∧
      (outcome (tracingProvider.searchRequest countedQuery) ⟨2, [.requestCancelled ""]⟩).1 =
        .ok ⟨"Votes > 2", 3, 0, true⟩ ∧
      (tracingProvider.announcement ⟨"Votes > 2", some 0, 3, false⟩).level = .info := by
  have hslot : countedSystem.slots[0]? =
      some (.running (.fetch countedQuery none (fun page => pure page.items) .fresh)) := rfl
  obtain ⟨entries, hhistory, hrecord⟩ : ∃ entries,
      System.History (fun _ => tracingProvider) countedSystem [.poll 0] entries ∧
        (countedSystem.poll tracingProvider 0).world.calls =
          [] ++ (System.eventsOf 0 entries).filterMap Event.call? :=
    System.exists_history_of_poll hslot
  have hcalls : (countedSystem.poll tracingProvider 0).world.calls =
      [⟨"Votes > 2", some 0, 3, false⟩] := by
    cbv
  have hrequested : .requested ⟨"Votes > 2", some 0, 3, false⟩ ∈ System.eventsOf 0 entries := by
    rw [← Event.mem_filterMap_call?, ← List.nil_append (List.filterMap _ _), ← hrecord, hcalls]
    exact List.mem_singleton_self _
  have hprovider : (fun _ : TaskId => tracingProvider) 0 = tracingProvider := rfl
  obtain ⟨hbody, -, hlevel, -⟩ := (tracingProvider.searchRequest_agrees_with_fetch countedQuery).2
    hprovider hhistory hslot hrequested
  exact ⟨_, hhistory, hrequested, hbody ⟨2, [.requestCancelled ""]⟩ rfl, hlevel⟩

end IssueQuery

import IssueQuery.Execution.Task
import IssueQuery.Execution.System
import IssueQuery.Proofs.Execution.Moves

/-!
# Moves of a task

`Task.Move` has the moves of all kinds of tasks.  Those of a fetch follow its course: the pipeline
is compiled, the custom fields are looked up one after the other, the request is made, and its
answer is awaited; at the places where the signal is looked at, a fetch may end as cancelled.
Between two moves a task is in some `Phase`: it is a slot of a system, or a fetch in the middle of a
poll that has all it needs for its request.

`Task.exists_chain_of_poll` says that every poll of a task is a chain of moves, and that a task that
is not finished by it is `Blocked`.
-/

namespace IssueQuery

variable {σ R α : Type}

/-! ### Where a task stands -/

/-- Where a task stands in the course of its lookups. -/
def Task.place : Task σ R α → Place
  | fetch _ _ _ (.lookingUp _ name state _) | lookup name _ state => state.place name
  | _ => .outside

/-- The task cannot go on by itself. -/
def Task.Blocked (id : TaskId) (cache : FieldCache) : Task σ R α → Prop
  | fetch _ _ _ .fresh | fire _ _ => False
  | fetch _ _ _ (.lookingUp _ name state _) | lookup name _ state => state.Blocked id name cache
  | fetch _ _ _ (.requesting _ _) | await _ _ => True

/-- A finished task and a dropped one stand nowhere. -/
def Slot.place : Slot σ R α → Place
  | running task => task.place
  | finished _ | dropped => .outside

/-- What a poll makes of the slot of a task. -/
def Slot.ofProgress : Progress (Except Error α) (Task σ R α) → Slot σ R α
  | .pending task => .running task
  | .ready result => .finished result

/-- No poll drops a task. -/
lemma Slot.ofProgress_ne_dropped (progress : Progress (Except Error α) (Task σ R α)) :
    Slot.ofProgress progress ≠ .dropped := by
  cases progress <;> nofun

/-- The names that are looked up before the request for a directive. -/
def Provider.fieldsToLookUp (provider : Provider R) (d : Directive) : List String :=
  if provider.checksFields then d.customFields else []

/-- How far a task has come. -/
inductive Phase (σ R α : Type) where
  | slot (s : Slot σ R α)
  /-- All fields of a query are looked up, and the request is to be made. -/
  | cleared (p : Pipeline σ R) (signal : Option Signal) (complete : Completion σ R α)
    (d : Directive)

namespace Phase

/-- Where a task stands in the line of a cell, if it does. -/
def place : Phase σ R α → Place
  | slot s => s.place
  | cleared _ _ _ _ => .outside

/-- A fetch that has come to some state. -/
abbrev fetching (p : Pipeline σ R) (signal : Option Signal) (complete : Completion σ R α)
    (state : Fetch R) : Phase σ R α :=
  .slot (.running (.fetch p signal complete state))

/-- A fetch that still has to look up some names. -/
def toLookUp (p : Pipeline σ R) (signal : Option Signal) (complete : Completion σ R α)
    (d : Directive) : List String → Phase σ R α
  | [] => .cleared p signal complete d
  | name :: rest => fetching p signal complete (.lookingUp d name .fresh rest)

/-- A fetch in the course of the lookup of a name, with others to follow. -/
def lookingUp (p : Pipeline σ R) (signal : Option Signal) (complete : Completion σ R α)
    (d : Directive) (name : String) (rest : List String) :
    Progress (Except Error CustomField) Lookup → Phase σ R α
  | .pending lookup => fetching p signal complete (.lookingUp d name lookup rest)
  | .ready (.ok _) => toLookUp p signal complete d rest
  | .ready (.error e) => .slot (.finished (.error e))

/-- A task that only looks up a field, in the course of the lookup. -/
def resolving (name : String) (complete : CustomField → α) :
    Progress (Except Error CustomField) Lookup → Phase σ R α
  | .pending lookup => .slot (.running (.lookup name complete lookup))
  | .ready result => .slot (.finished (result.map complete))

end Phase

/-! ### Moves -/

/-- One move of a task. -/
inductive Task.Move (provider : Provider R) (id : TaskId) :
    Phase σ R α → World σ → List Event → Phase σ R α → World σ → Prop where
  /-- The pipeline does not compile. -/
  | refuse {p : Pipeline σ R} {signal : Option Signal} {complete : Completion σ R α} {e : Error}
    {w : World σ} {c : Context σ} :
    outcome (p.toDirective provider.fields) w.toContext = (.error e, c) →
      Move provider id (.fetching p signal complete .fresh) w []
        (.slot (.finished (.error e))) { w with toContext := c }
  /-- The signal has fired before the fetch began. -/
  | cancelStart {p : Pipeline σ R} {signal : Option Signal} {complete : Completion σ R α}
    {d : Directive} {w : World σ} {c : Context σ} :
    outcome (p.toDirective provider.fields) w.toContext = (.ok d, c) →
      w.isCancelled signal = true →
      Move provider id (.fetching p signal complete .fresh) w []
        (.slot (.finished (.error .cancelled))) { w with toContext := c }
  | start {p : Pipeline σ R} {signal : Option Signal} {complete : Completion σ R α}
    {d : Directive} {w : World σ} {c : Context σ} :
    outcome (p.toDirective provider.fields) w.toContext = (.ok d, c) →
      w.isCancelled signal = false →
      Move provider id (.fetching p signal complete .fresh) w []
        (.toLookUp p signal complete d (provider.fieldsToLookUp d)) { w with toContext := c }
  | lookUp {p : Pipeline σ R} {signal : Option Signal} {complete : Completion σ R α}
    {d : Directive} {name : String} {lookup : Lookup} {rest : List String} {w w' : World σ}
    {events : List Event} {progress : Progress (Except Error CustomField) Lookup} :
    Lookup.Move provider.source id name (.pending lookup) w events progress w' →
      Move provider id (.fetching p signal complete (.lookingUp d name lookup rest)) w events
        (.lookingUp p signal complete d name rest progress) w'
  /-- A lookup has to wait, and the signal is watched. -/
  | watch {p : Pipeline σ R} {signal : Option Signal} {complete : Completion σ R α}
    {d : Directive} {name : String} {lookup : Lookup} {rest : List String} {w w' : World σ} :
    lookup.Blocked id name w.cache → World.Quiet w w' →
      Move provider id (.fetching p signal complete (.lookingUp d name lookup rest)) w []
        (.fetching p signal complete (.lookingUp d name lookup rest)) w'
  /-- A lookup has to wait, but the signal has fired. -/
  | cancelLookup {p : Pipeline σ R} {signal : Option Signal} {complete : Completion σ R α}
    {d : Directive} {name : String} {lookup : Lookup} {rest : List String} {w w₁ w' : World σ} :
    lookup.Blocked id name w.cache → w.isCancelled signal = true → World.Quiet w w₁ →
      (lookup.abandon id name).run w₁ = ((), w') →
      Move provider id (.fetching p signal complete (.lookingUp d name lookup rest)) w
        (lookup.place name).abandonment (.slot (.finished (.error .cancelled))) w'
  | cancelRequest {p : Pipeline σ R} {signal : Option Signal} {complete : Completion σ R α}
    {d : Directive} {w w' : World σ} :
    World.Quiet w w' → w'.isCancelled signal = true →
      Move provider id (.cleared p signal complete d) w []
        (.slot (.finished (.error .cancelled))) w'
  | request {p : Pipeline σ R} {signal : Option Signal} {complete : Completion σ R α}
    {d : Directive} {w w₁ : World σ} {calls : List FetchCall} :
    World.Quiet w w₁ → w₁.isCancelled signal = false →
      calls = w₁.calls ++ [⟨d.jql, d.maxResults, d.firstRecord, false⟩] →
      Move provider id (.cleared p signal complete d) w
        [.requested ⟨d.jql, d.maxResults, d.firstRecord, false⟩]
        (.fetching p signal complete (.requesting d.jql (provider.fetcher calls)))
        { w₁ with calls }
  | awaitPage {p : Pipeline σ R} {signal : Option Signal} {complete : Completion σ R α}
    {jql : String} {reply rest : Activity (Page R)} {w w' : World σ} :
    World.Quiet w w' →
      Move provider id (.fetching p signal complete (.requesting jql reply)) w []
        (.fetching p signal complete (.requesting jql rest)) w'
  | endRequest {p : Pipeline σ R} {signal : Option Signal} {complete : Completion σ R α}
    {jql : String} {reply : Activity (Page R)} {result : Except Error α} {w w' : World σ} :
    World.Quiet w w' →
      Move provider id (.fetching p signal complete (.requesting jql reply)) w []
        (.slot (.finished result)) w'
  | resolve {name : String} {complete : CustomField → α} {lookup : Lookup} {w w' : World σ}
    {events : List Event} {progress : Progress (Except Error CustomField) Lookup} :
    Lookup.Move provider.source id name (.pending lookup) w events progress w' →
      Move provider id (.slot (.running (.lookup name complete lookup))) w events
        (.resolving name complete progress) w'
  | fire {signal : Signal} {result : α} {w w' : World σ} :
    World.Quiet w w' →
      Move provider id (.slot (.running (.fire signal result))) w []
        (.slot (.finished (.ok result))) w'
  | await {signal : Signal} {result : α} {w w' : World σ} {s : Slot σ R α} :
    World.Quiet w w' → s = .running (.await signal result) ∨ s = .finished (.ok result) →
      Move provider id (.slot (.running (.await signal result))) w [] (.slot s) w'
  /-- The task is dropped, wherever it is. -/
  | drop {task : Task σ R α} {w w' : World σ} :
    (task.abandon id).run w = ((), w') →
      Move provider id (.slot (.running task)) w task.place.abandonment (.slot .dropped) w'

/-- Nothing moves a task that is over. -/
lemma Task.eq_of_chain_of_over {provider : Provider R} {id : TaskId} {slot : Slot σ R α}
    {phase : Phase σ R α} {w w' : World σ} {events : List Event}
    (h : Chain (Move provider id) (.slot slot) w events phase w')
    (hover : ∀ task, slot ≠ .running task) : events = [] ∧ phase = .slot slot := by
  cases h with
  | refl => exact ⟨rfl, rfl⟩
  | head hfirst _ =>
    cases hfirst <;> exact absurd rfl (hover _)

/-! ### Polls of a fetch -/

namespace Fetch

variable {provider : Provider R} {id : TaskId} {w w' : World σ}
  (p : Pipeline σ R) (signal : Option Signal) (complete : Completion σ R α) (d : Directive)

/-- What a fetch has come to after its lookups went on. -/
def afterLookupsPhase : Progress (Except Error Unit) Lookups → Phase σ R α
  | .pending ⟨name, lookup, rest⟩ => .fetching p signal complete (.lookingUp d name lookup rest)
  | .ready (.ok _) => .cleared p signal complete d
  | .ready (.error e) => .slot (.finished (.error e))

/-- Lookups that are not at their end are blocked. -/
def LookupsWait (id : TaskId) (cache : FieldCache) : Progress (Except Error Unit) Lookups → Prop
  | .pending lookups => lookups.lookup.Blocked id lookups.name cache
  | .ready _ => True

/-- The moves of a lookup are moves of the fetch that it is for. -/
lemma chain_lookingUp {name : String} (rest : List String) {events : List Event}
    {progress progress' : Progress (Except Error CustomField) Lookup}
    (h : Chain (Lookup.Move provider.source id name) progress w events progress' w') :
    Chain (Task.Move provider id) (.lookingUp p signal complete d name rest progress) w events
      (.lookingUp p signal complete d name rest progress') w' := by
  refine h.map (Phase.lookingUp p signal complete d name rest) ?_
  intro progress w events progress' w' hmove
  obtain ⟨lookup, rfl⟩ := hmove.exists_pending
  exact .lookUp hmove

/-- To go on with one lookup is a chain of moves of the fetch. -/
lemma exists_chain_of_lookup_poll {name : String} {lookup : Lookup} (rest : List String)
    {answer : Progress (Except Error CustomField) Lookup}
    (h : (lookup.poll provider.source id name).run w = (answer, w')) :
    (∃ events, Chain (Task.Move provider id)
      (.lookingUp p signal complete d name rest (.pending lookup)) w events
      (.lookingUp p signal complete d name rest answer) w') ∧
      Lookup.Waits id name w'.cache answer := by
  obtain ⟨⟨events, hchain⟩, hwaits⟩ := Lookup.exists_chain_of_poll h
  exact ⟨⟨events, chain_lookingUp p signal complete d rest hchain⟩, hwaits⟩

/-- To go on with all lookups is a chain of moves. -/
lemma exists_chain_of_pollLookups {name : String} {lookup : Lookup} {rest : List String}
    {progress : Progress (Except Error Unit) Lookups}
    (h : (pollLookups provider.source id name lookup rest).run w = (progress, w')) :
    (∃ events, Chain (Task.Move provider id)
      (.lookingUp p signal complete d name rest (.pending lookup)) w events
      (afterLookupsPhase p signal complete d progress) w') ∧ LookupsWait id w'.cache progress := by
  induction rest generalizing name lookup w with
  | nil =>
    obtain ⟨answer, w₁, hpoll⟩ : ∃ answer w₁,
        (lookup.poll provider.source id name).run w = (answer, w₁) := ⟨_, _, rfl⟩
    have hmoves := exists_chain_of_lookup_poll p signal complete d [] hpoll
    rw [pollLookups, run_bind_of_eq hpoll] at h
    rcases answer with (e | field) | lookup
    all_goals
      obtain ⟨rfl, rfl⟩ := Prod.mk.inj h
      exact hmoves
  | cons next rest ih =>
    obtain ⟨answer, w₁, hpoll⟩ : ∃ answer w₁,
        (lookup.poll provider.source id name).run w = (answer, w₁) := ⟨_, _, rfl⟩
    obtain ⟨⟨events, hchain⟩, hwaits⟩ :=
      exists_chain_of_lookup_poll p signal complete d (next :: rest) hpoll
    rw [pollLookups, run_bind_of_eq hpoll] at h
    rcases answer with (e | field) | lookup
    · obtain ⟨rfl, rfl⟩ := Prod.mk.inj h
      exact ⟨⟨events, hchain⟩, hwaits⟩
    · obtain ⟨⟨later, hrest⟩, hlater⟩ := ih h
      exact ⟨⟨_, hchain.trans hrest⟩, hlater⟩
    · obtain ⟨rfl, rfl⟩ := Prod.mk.inj h
      exact ⟨⟨events, hchain⟩, hwaits⟩

/-- Where a fetch is that has come to some outcome: one that has a page is still in its request, and
what is made of the page is yet to come. -/
inductive EndsAt : Outcome R → Phase σ R α → Prop where
  | pending (state : Fetch R) :
    EndsAt (.pending state) (.fetching p signal complete state)
  | page (page : Page R) (jql : String) (reply : Activity (Page R)) :
    EndsAt (.ready (.ok page)) (.fetching p signal complete (.requesting jql reply))
  | error (e : Error) : EndsAt (.ready (.error e)) (.slot (.finished (.error e)))

/-- A fetch that is not at its end is blocked. -/
def FetchWaits (id : TaskId) (cache : FieldCache) : Outcome R → Prop
  | .pending state => (Task.fetch p signal complete state).Blocked id cache
  | .ready _ => True

/-- To wait for the page is a chain of moves. -/
lemma exists_chain_of_awaitPage {jql : String} {reply : Activity (Page R)} {o : Outcome R}
    (h : (awaitPage id signal jql reply).run w = (o, w')) :
    (∃ events phase, Chain (Task.Move provider id)
      (.fetching p signal complete (.requesting jql reply)) w events phase w' ∧
      EndsAt p signal complete o phase) ∧ FetchWaits p signal complete id w'.cache o := by
  obtain ⟨answer, w₁, hpoll⟩ : ∃ answer w₁, (reply.poll id).run w = (answer, w₁) := ⟨_, _, rfl⟩
  have hquiet : World.Quiet w w₁ := Activity.quiet_of_poll hpoll
  rw [awaitPage, run_bind_of_eq hpoll] at h
  rcases answer with (e | page) | rest
  · obtain ⟨rfl, rfl⟩ := Prod.mk.inj h
    exact ⟨⟨_, _, .single (.endRequest hquiet), .error e⟩, trivial⟩
  · obtain ⟨rfl, rfl⟩ := Prod.mk.inj h
    exact ⟨⟨_, _, .single (.awaitPage hquiet), .page page jql reply⟩, trivial⟩
  · obtain ⟨cancelled, w₂, hcancel⟩ : ∃ cancelled w₂,
        (World.pollCancellation id signal).run w₁ = (cancelled, w₂) := ⟨_, _, rfl⟩
    obtain ⟨-, hquiet₂⟩ := World.quiet_of_pollCancellation hcancel
    rw [run_bind_of_eq hcancel] at h
    cases cancelled with
    | true =>
      obtain ⟨u, w₃, hnote⟩ : ∃ u w₃, (World.note (.requestCancelled jql)).run w₂ = (u, w₃) :=
        ⟨_, _, rfl⟩
      simp only [if_true] at h
      rw [run_bind_of_eq hnote] at h
      obtain ⟨rfl, rfl⟩ := Prod.mk.inj h
      have hquiet₃ := (hquiet.trans hquiet₂).trans (World.quiet_of_note hnote)
      exact ⟨⟨_, _, .single (.endRequest hquiet₃), .error _⟩, trivial⟩
    | false =>
      obtain ⟨rfl, rfl⟩ := Prod.mk.inj h
      exact ⟨⟨_, _, .single (.awaitPage (hquiet.trans hquiet₂)), .pending _⟩, trivial⟩

/-- To make the request, unless the signal has fired, is a chain of moves. -/
lemma exists_chain_of_request {o : Outcome R}
    (h : (request provider id signal d).run w = (o, w')) :
    (∃ events phase, Chain (Task.Move provider id)
      (.cleared p signal complete d) w events phase w' ∧
      EndsAt p signal complete o phase) ∧ FetchWaits p signal complete id w'.cache o := by
  obtain ⟨u, w₁, hnote⟩ : ∃ u w₁, (World.note (.request provider.settings.tracesRequests d.jql
      d.maxResults d.firstRecord)).run w = (u, w₁) := ⟨_, _, rfl⟩
  have hquiet : World.Quiet w w₁ := World.quiet_of_note hnote
  rw [request, run_bind_of_eq hnote, run_get_bind] at h
  cases hcancelled : w₁.isCancelled signal with
  | true =>
    rw [hcancelled] at h
    obtain ⟨rfl, rfl⟩ := Prod.mk.inj h
    exact ⟨⟨_, _, .single (.cancelRequest hquiet hcancelled), .error _⟩, trivial⟩
  | false =>
    rw [hcancelled] at h
    -- What is left after the check is the call, which is put down as made in time, and the wait.
    change (awaitPage id signal d.jql (provider.fetcher (w₁.calls ++ [⟨d.jql, d.maxResults,
      d.firstRecord, w₁.isCancelled signal⟩]))).run { w₁ with calls := w₁.calls ++ [⟨d.jql,
        d.maxResults, d.firstRecord, w₁.isCancelled signal⟩] } = (o, w') at h
    rw [hcancelled] at h
    obtain ⟨⟨events, phase, hchain, hends⟩, hwaits⟩ :=
      exists_chain_of_awaitPage p signal complete h
    exact ⟨⟨_, phase, .head (.request hquiet hcancelled rfl) hchain, hends⟩, hwaits⟩

/-- To go on after the lookups is a chain of moves. -/
lemma exists_chain_of_afterLookups {progress : Progress (Except Error Unit) Lookups}
    {o : Outcome R} (h : (afterLookups provider id signal d progress).run w = (o, w'))
    (hwait : LookupsWait id w.cache progress) :
    (∃ events phase, Chain (Task.Move provider id)
      (afterLookupsPhase p signal complete d progress) w events phase w' ∧
      EndsAt p signal complete o phase) ∧ FetchWaits p signal complete id w'.cache o := by
  rcases progress with (e | u) | ⟨name, lookup, rest⟩
  · obtain ⟨rfl, rfl⟩ := Prod.mk.inj h
    exact ⟨⟨_, _, .refl _ w, .error e⟩, trivial⟩
  · exact exists_chain_of_request p signal complete d h
  · obtain ⟨cancelled, w₁, hcancel⟩ : ∃ cancelled w₁,
        (World.pollCancellation id signal).run w = (cancelled, w₁) := ⟨_, _, rfl⟩
    obtain ⟨hcancelled, hquiet⟩ := World.quiet_of_pollCancellation hcancel
    rw [afterLookups, run_bind_of_eq hcancel] at h
    cases cancelled with
    | true =>
      obtain ⟨u, w₂, hnote⟩ : ∃ u w₂, (World.note .lookupCancelled).run w₁ = (u, w₂) :=
        ⟨_, _, rfl⟩
      obtain ⟨u, w₃, habandon⟩ : ∃ u w₃, (lookup.abandon id name).run w₂ = (u, w₃) :=
        ⟨_, _, rfl⟩
      simp only [if_true] at h
      rw [run_bind_of_eq hnote, run_bind_of_eq habandon] at h
      obtain ⟨rfl, rfl⟩ := Prod.mk.inj h
      exact ⟨⟨_, _, .single (.cancelLookup hwait hcancelled.symm
        (hquiet.trans (World.quiet_of_note hnote)) habandon), .error _⟩, trivial⟩
    | false =>
      obtain ⟨rfl, rfl⟩ := Prod.mk.inj h
      refine ⟨⟨_, _, .single (.watch hwait hquiet), .pending _⟩, ?_⟩
      change lookup.Blocked id name w₁.cache
      rw [hquiet.cache]
      exact hwait

/-- To begin a fetch is a chain of moves. -/
lemma exists_chain_of_start {o : Outcome R} (h : (start provider id p signal).run w = (o, w')) :
    (∃ events phase, Chain (Task.Move provider id)
      (.fetching p signal complete .fresh) w events phase w' ∧
      EndsAt p signal complete o phase) ∧ FetchWaits p signal complete id w'.cache o := by
  obtain ⟨d, c, hcompile⟩ : ∃ d c,
      outcome (p.toDirective provider.fields) w.toContext = (d, c) := ⟨_, _, rfl⟩
  have hrun : (World.onContext (p.toDirective provider.fields)).run w =
      (d, { w with toContext := c }) := by
    change ((outcome (p.toDirective provider.fields) w.toContext).1,
      { w with toContext := (outcome (p.toDirective provider.fields) w.toContext).2 }) = _
    rw [hcompile]
  rw [start, run_bind_of_eq hrun] at h
  cases d with
  | error e =>
    obtain ⟨rfl, rfl⟩ := Prod.mk.inj h
    exact ⟨⟨_, _, .single (.refuse hcompile), .error e⟩, trivial⟩
  | ok d =>
    simp only [run_get_bind] at h
    cases hcancelled : ({ w with toContext := c } : World σ).isCancelled signal with
    | true =>
      simp only [hcancelled, if_true] at h
      obtain ⟨rfl, rfl⟩ := Prod.mk.inj h
      exact ⟨⟨_, _, .single (.cancelStart hcompile hcancelled), .error _⟩, trivial⟩
    | false =>
      simp only [hcancelled, Bool.false_eq_true, if_false] at h
      have hstart : Task.Move provider id (.fetching p signal complete .fresh) w []
          (.toLookUp p signal complete d (provider.fieldsToLookUp d)) { w with toContext := c } :=
        .start hcompile hcancelled
      split at h
      next name rest hchecks hfields =>
        have hnames : provider.fieldsToLookUp d = name :: rest := by
          rw [Provider.fieldsToLookUp, hchecks, hfields, if_pos rfl]
        rw [hnames] at hstart
        obtain ⟨progress, w₁, hlookups⟩ : ∃ progress w₁,
            (pollLookups provider.source id name .fresh rest).run { w with toContext := c } =
              (progress, w₁) := ⟨_, _, rfl⟩
        rw [run_bind_of_eq hlookups] at h
        obtain ⟨⟨events, hchain⟩, hwait⟩ :=
          exists_chain_of_pollLookups p signal complete d hlookups
        obtain ⟨⟨later, phase, hafter, hends⟩, hwaits⟩ :=
          exists_chain_of_afterLookups p signal complete d h hwait
        exact ⟨⟨_, phase, .head hstart (hchain.trans hafter), hends⟩, hwaits⟩
      next hnone =>
        have hnames : provider.fieldsToLookUp d = [] := by
          rw [Provider.fieldsToLookUp]
          cases hchecks : provider.checksFields with
          | false => rfl
          | true =>
            cases hfields : d.customFields with
            | nil => rfl
            | cons name rest => exact absurd hfields (hnone name rest hchecks)
        rw [hnames] at hstart
        obtain ⟨⟨events, phase, hchain, hends⟩, hwaits⟩ :=
          exists_chain_of_request p signal complete d h
        exact ⟨⟨_, phase, .head hstart hchain, hends⟩, hwaits⟩

/-- Every poll of a fetch is a chain of moves. -/
lemma exists_chain_of_poll {state : Fetch R} {o : Outcome R}
    (h : (state.poll provider id p signal).run w = (o, w')) :
    (∃ events phase, Chain (Task.Move provider id)
      (.fetching p signal complete state) w events phase w' ∧
      EndsAt p signal complete o phase) ∧ FetchWaits p signal complete id w'.cache o := by
  cases state with
  | fresh => exact exists_chain_of_start p signal complete h
  | lookingUp d name lookup rest =>
    obtain ⟨progress, w₁, hlookups⟩ : ∃ progress w₁,
        (pollLookups provider.source id name lookup rest).run w = (progress, w₁) := ⟨_, _, rfl⟩
    rw [poll, run_bind_of_eq hlookups] at h
    obtain ⟨⟨events, hchain⟩, hwait⟩ := exists_chain_of_pollLookups p signal complete d hlookups
    obtain ⟨⟨later, phase, hafter, hends⟩, hwaits⟩ :=
      exists_chain_of_afterLookups p signal complete d h hwait
    exact ⟨⟨_, phase, hchain.trans hafter, hends⟩, hwaits⟩
  | requesting jql reply => exact exists_chain_of_awaitPage p signal complete h

end Fetch

/-! ### Polls of a task -/

namespace Task

variable {provider : Provider R} {id : TaskId} {w w' : World σ}

/-- A task that a poll does not bring to its end is blocked. -/
def Waits (id : TaskId) (cache : FieldCache) : Progress (Except Error α) (Task σ R α) → Prop
  | .pending task => task.Blocked id cache
  | .ready _ => True

/-- Every poll of a task is a chain of moves, after which the task is finished or blocked. -/
theorem exists_chain_of_poll {task : Task σ R α}
    {progress : Progress (Except Error α) (Task σ R α)}
    (h : (task.poll provider id).run w = (progress, w')) :
    (∃ events, Chain (Move provider id) (.slot (.running task)) w events
      (.slot (.ofProgress progress)) w') ∧ Waits id w'.cache progress := by
  cases task with
  | fetch p signal complete state =>
    obtain ⟨o, w₁, hpoll⟩ : ∃ o w₁, (state.poll provider id p signal).run w = (o, w₁) :=
      ⟨_, _, rfl⟩
    obtain ⟨⟨events, phase, hchain, hends⟩, hwaits⟩ :=
      Fetch.exists_chain_of_poll p signal complete hpoll
    rw [poll, run_bind_of_eq hpoll] at h
    cases hends with
    | pending state =>
      obtain ⟨rfl, rfl⟩ := Prod.mk.inj h
      exact ⟨⟨events, hchain⟩, hwaits⟩
    | error e =>
      obtain ⟨rfl, rfl⟩ := Prod.mk.inj h
      exact ⟨⟨events, hchain⟩, trivial⟩
    | page page jql reply =>
      obtain ⟨rfl, rfl⟩ := Prod.mk.inj h
      have hquiet := World.quiet_withContext w₁ (outcome (complete page) w₁.toContext).2
      exact ⟨⟨_, hchain.trans (.single (.endRequest hquiet))⟩, trivial⟩
  | lookup name complete state =>
    obtain ⟨answer, w₁, hpoll⟩ : ∃ answer w₁,
        (state.poll provider.source id name).run w = (answer, w₁) := ⟨_, _, rfl⟩
    obtain ⟨⟨events, hchain⟩, hwaits⟩ := Lookup.exists_chain_of_poll hpoll
    have hmoves : Chain (Move provider id) (.slot (.running (.lookup name complete state))) w
        events (.resolving name complete answer) w₁ := by
      refine hchain.map (Phase.resolving name complete) ?_
      intro progress w events progress' w' hmove
      obtain ⟨lookup, rfl⟩ := hmove.exists_pending
      exact .resolve hmove
    rw [poll, run_bind_of_eq hpoll] at h
    cases answer with
    | pending state =>
      obtain ⟨rfl, rfl⟩ := Prod.mk.inj h
      exact ⟨⟨events, hmoves⟩, hwaits⟩
    | ready result =>
      obtain ⟨rfl, rfl⟩ := Prod.mk.inj h
      exact ⟨⟨events, hmoves⟩, trivial⟩
  | fire signal result =>
    obtain ⟨rfl, rfl⟩ := Prod.mk.inj h
    exact ⟨⟨_, .single (.fire (World.quiet_fire signal w))⟩, trivial⟩
  | await signal result =>
    obtain ⟨cancelled, w₁, hcancel⟩ : ∃ cancelled w₁,
        (World.pollCancellation id (some signal)).run w = (cancelled, w₁) := ⟨_, _, rfl⟩
    obtain ⟨-, hquiet⟩ := World.quiet_of_pollCancellation hcancel
    rw [poll, run_bind_of_eq hcancel] at h
    cases cancelled with
    | true =>
      obtain ⟨rfl, rfl⟩ := Prod.mk.inj h
      exact ⟨⟨_, .single (.await hquiet (.inr rfl))⟩, trivial⟩
    | false =>
      obtain ⟨rfl, rfl⟩ := Prod.mk.inj h
      exact ⟨⟨_, .single (.await hquiet (.inl rfl))⟩, trivial⟩

end Task

end IssueQuery

import IssueQuery.Proofs.Execution.TaskMoves

/-!
# Histories of systems

A system of tasks goes on by `System.Action`s in any order: new tasks come in, tasks are polled and
dropped, and from outside fields are inserted into the cache, signals are fired, and the host
program does something of its own.  `System.after` is the system after a list of actions.

`System.History` says which events a list of actions shows, each with the task that it is due to.
Every list of actions has a history (`System.exists_history`), and the records of a world are what
its history says: the calls and the questions to the server are the ones that were shown
(`System.History.records`).
-/

namespace IssueQuery

variable {σ R α : Type}

namespace Event

/-- The page that is requested. -/
def call? : Event → Option FetchCall
  | requested call => some call
  | _ => none

/-- The field that the server is asked for. -/
def question? : Event → Option String
  | asked name => some name
  | _ => none

/-- The name of the field that the event is about. -/
def name? : Event → Option String
  | asked name | stored name _ | lookedUp name _ | abandoned name => some name
  | requested _ => none

/-- The calls among some events are those that are requested. -/
lemma mem_filterMap_call? {call : FetchCall} {events : List Event} :
    call ∈ events.filterMap call? ↔ .requested call ∈ events := by
  constructor
  · intro hcall
    obtain ⟨event, hevent, hsome⟩ := List.mem_filterMap.mp hcall
    cases event with
    | requested made =>
      obtain rfl := Option.some.inj hsome
      exact hevent
    | _ => cases hsome
  · exact fun hrequested => List.mem_filterMap.mpr ⟨_, hrequested, rfl⟩

end Event

/-! ### Actions -/

/-- The task has not begun. -/
def Task.IsNew : Task σ R α → Prop
  | fetch _ _ _ .fresh | lookup _ _ .fresh | fire _ _ | await _ _ => True
  | _ => False

/-- The fields of a list that go into the cache when the list is inserted. -/
def FieldCache.newFields (cache : FieldCache) : List CustomField → List CustomField
  | [] => []
  | field :: fields =>
    (if (cache.insert field).2 then [field] else []) ++ (cache.insert field).1.newFields fields

/-- Two worlds differ at most in what a task watches and whether it is woken. -/
structure World.SameBut (id : TaskId) (w w' : World σ) : Prop where
  context : w'.toContext = w.toContext
  cache : w'.cache = w.cache
  calls : w'.calls = w.calls
  lookups : w'.lookups = w.lookups
  fired : w'.fired = w.fired
  woken : ∀ other ∈ w.woken, other ≠ id → other ∈ w'.woken

namespace World

/-- A world differs from itself in nothing. -/
lemma sameBut_refl (id : TaskId) (w : World σ) : SameBut id w w :=
  ⟨rfl, rfl, rfl, rfl, rfl, fun _ hwoken _ => hwoken⟩

/-- A poll of a task begins with nothing but that its wake-up is used up. -/
lemma sameBut_rouse (id : TaskId) (w : World σ) : SameBut id w ((rouse id).run w).2 :=
  ⟨rfl, rfl, rfl, rfl, rfl, fun _ hwoken hne => List.mem_filter.mpr ⟨hwoken, by simpa⟩⟩

/-- The end of a task concerns nothing but what it watches and whether it is woken. -/
lemma sameBut_retire (id : TaskId) (w : World σ) : SameBut id w ((retire id).run w).2 :=
  ⟨rfl, rfl, rfl, rfl, rfl, fun _ hwoken hne => List.mem_filter.mpr ⟨hwoken, by simpa⟩⟩

end World

namespace System

/-- Something that happens to a system. -/
inductive Action (σ R α : Type) where
  | spawn (task : Task σ R α) (isNew : task.IsNew)
  | poll (id : TaskId)
  | drop (id : TaskId)
  | insert (fields : List CustomField)
  | fire (signal : Signal)
  | host (change : σ → σ)

/-- Tasks may come from different providers, which share the cache. -/
def act (providers : TaskId → Provider R) (s : System σ R α) : Action σ R α → System σ R α
  | .spawn task _ => { s with slots := s.slots ++ [.running task] }
  | .poll id => s.poll (providers id) id
  | .drop id => s.drop id
  | .insert fields => { s with world.cache := (s.world.cache.insertAll fields).1 }
  | .fire signal => { s with world := ((World.fire signal).run s.world).2 }
  | .host change => { s with world.host := change s.world.host }

/-- The system after some actions. -/
def after (providers : TaskId → Provider R) (s : System σ R α) (actions : List (Action σ R α)) :
    System σ R α :=
  actions.foldl (act providers) s

/-- A task has its turn and makes some moves up to a new slot; the others are left alone.  A task
that is left running is blocked. -/
inductive Turn (provider : Provider R) (id : TaskId) (s : System σ R α) (events : List Event)
    (slot : Slot σ R α) (s' : System σ R α) : Prop where
  | intro {task : Task σ R α} {w w' : World σ} :
    s.slots[id]? = some (.running task) → World.SameBut id s.world w →
      Chain (Task.Move provider id) (.slot (.running task)) w events (.slot slot) w' →
      (∀ left, slot = .running left → left.Blocked id w'.cache) → World.SameBut id w' s'.world →
      s'.slots = s.slots.set id slot → Turn provider id s events slot s'

/-- An event and the task that it is due to, if it is not due to the outside. -/
abbrev Entry := Option TaskId × Event

/-- What a task has shown. -/
def eventsOf (id : TaskId) (entries : List Entry) : List Event :=
  entries.filterMap fun entry => if entry.1 = some id then some entry.2 else none

/-- What an action shows. -/
inductive Shows (providers : TaskId → Provider R) (s : System σ R α) :
    Action σ R α → List Entry → Prop where
  | spawn (task : Task σ R α) (isNew : task.IsNew) : Shows providers s (.spawn task isNew) []
  | poll {id : TaskId} {events : List Event}
    {progress : Progress (Except Error α) (Task σ R α)} :
    Turn (providers id) id s events (.ofProgress progress) (s.poll (providers id) id) →
      Shows providers s (.poll id) (events.map (some id, ·))
  | drop {id : TaskId} {task : Task σ R α} :
    s.slots[id]? = some (.running task) →
      Shows providers s (.drop id) (task.place.abandonment.map (some id, ·))
  /-- There is nothing to poll. -/
  | pollOver {id : TaskId} :
    (∀ task, s.slots[id]? ≠ some (.running task)) → Shows providers s (.poll id) []
  /-- There is nothing to drop. -/
  | dropOver {id : TaskId} :
    (∀ task, s.slots[id]? ≠ some (.running task)) → Shows providers s (.drop id) []
  | insert (fields : List CustomField) :
    Shows providers s (.insert fields)
      ((s.world.cache.newFields fields).map fun field => (none, .stored field.name field))
  | fire (signal : Signal) : Shows providers s (.fire signal) []
  | host (change : σ → σ) : Shows providers s (.host change) []

/-- What a list of actions shows, from the first to the last. -/
inductive History (providers : TaskId → Provider R) :
    System σ R α → List (Action σ R α) → List Entry → Prop where
  | nil (s : System σ R α) : History providers s [] []
  | cons {s : System σ R α} {action : Action σ R α} {actions : List (Action σ R α)}
    {entries later : List Entry} :
    Shows providers s action entries → History providers (s.act providers action) actions later →
      History providers s (action :: actions) (entries ++ later)

/-! ### Every action shows something -/

section Turns

variable {id : TaskId} {s : System σ R α} {task : Task σ R α}

/-- Polling a running task gives it a turn, with the moves that the poll is made of. -/
lemma turn_of_poll {provider : Provider R} {events : List Event} {w : World σ}
    {progress : Progress (Except Error α) (Task σ R α)}
    (hslot : s.slots[id]? = some (.running task))
    (hpoll : (task.poll provider id).run ((World.rouse id).run s.world).2 = (progress, w))
    (hchain : Chain (Task.Move provider id) (.slot (.running task))
      ((World.rouse id).run s.world).2 events (.slot (.ofProgress progress)) w) :
    Turn provider id s events (.ofProgress progress) (s.poll provider id) := by
  have hwaits := (Task.exists_chain_of_poll hpoll).2
  have hrun : (do World.rouse id; task.poll provider id).run s.world = (progress, w) := hpoll
  have hbefore := World.sameBut_rouse id s.world
  rw [poll, hslot]
  simp only [hrun]
  cases progress with
  | pending left =>
    refine .intro hslot hbefore hchain ?_ (World.sameBut_refl id w) rfl
    rintro _ ⟨⟩
    exact hwaits
  | ready result => exact .intro hslot hbefore hchain nofun (World.sameBut_retire id w) rfl

/-- Whatever a poll of a running task comes to, it is a turn of the task. -/
lemma exists_turn_of_poll (provider : Provider R) (hslot : s.slots[id]? = some (.running task)) :
    ∃ events progress, Turn provider id s events (.ofProgress progress) (s.poll provider id) := by
  obtain ⟨progress, w, hpoll⟩ : ∃ progress w,
      (task.poll provider id).run ((World.rouse id).run s.world).2 = (progress, w) := ⟨_, _, rfl⟩
  obtain ⟨⟨events, hchain⟩, -⟩ := Task.exists_chain_of_poll hpoll
  exact ⟨events, progress, turn_of_poll hslot hpoll hchain⟩

/-- Dropping a running task gives it a last turn. -/
lemma turn_of_drop (provider : Provider R) (hslot : s.slots[id]? = some (.running task)) :
    Turn provider id s task.place.abandonment .dropped (s.drop id) := by
  obtain ⟨u, w, habandon⟩ : ∃ u w, (task.abandon id).run s.world = (u, w) := ⟨_, _, rfl⟩
  have hrun : (do task.abandon id; World.retire id).run s.world = (World.retire id).run w :=
    run_bind_of_eq habandon
  have hdrop : s.drop id = ⟨((World.retire id).run w).2, s.slots.set id .dropped⟩ := by
    rw [drop, hslot]
    simp only [hrun]
    rfl
  rw [hdrop]
  have hchain : Chain (Task.Move provider id) (.slot (.running task)) s.world
      task.place.abandonment (.slot .dropped) w := .single (.drop habandon)
  exact .intro hslot (World.sameBut_refl id s.world) hchain nofun (World.sameBut_retire id w) rfl

end Turns

variable {providers : TaskId → Provider R} {s : System σ R α}

/-- Every action shows something, be it nothing at all. -/
lemma exists_shows (providers : TaskId → Provider R) (s : System σ R α)
    (action : Action σ R α) : ∃ entries, Shows providers s action entries := by
  cases action with
  | spawn task isNew => exact ⟨_, .spawn task isNew⟩
  | poll id =>
    by_cases hslot : ∃ task, s.slots[id]? = some (.running task)
    · obtain ⟨task, hslot⟩ := hslot
      obtain ⟨events, progress, hturn⟩ := exists_turn_of_poll (providers id) hslot
      exact ⟨_, .poll hturn⟩
    · exact ⟨_, .pollOver (not_exists.mp hslot)⟩
  | drop id =>
    by_cases hslot : ∃ task, s.slots[id]? = some (.running task)
    · obtain ⟨task, hslot⟩ := hslot
      exact ⟨_, .drop hslot⟩
    · exact ⟨_, .dropOver (not_exists.mp hslot)⟩
  | insert fields => exact ⟨_, .insert fields⟩
  | fire signal => exact ⟨_, .fire signal⟩
  | host change => exact ⟨_, .host change⟩

/-- Every list of actions has a history. -/
theorem exists_history (providers : TaskId → Provider R) (s : System σ R α)
    (actions : List (Action σ R α)) : ∃ entries, History providers s actions entries := by
  induction actions generalizing s with
  | nil => exact ⟨_, .nil s⟩
  | cons action actions ih =>
    obtain ⟨entries, hshows⟩ := exists_shows providers s action
    obtain ⟨later, hlater⟩ := ih (s.act providers action)
    exact ⟨_, .cons hshows hlater⟩

/-- Nothing is left to do for a task that is over. -/
lemma poll_of_over {provider : Provider R} {id : TaskId}
    (hslot : ∀ task, s.slots[id]? ≠ some (.running task)) : s.poll provider id = s := by
  rw [poll]
  split
  next task h => exact absurd h (hslot task)
  next => rfl

/-- Nothing is left to drop of a task that is over. -/
lemma drop_of_over {id : TaskId} (hslot : ∀ task, s.slots[id]? ≠ some (.running task)) :
    s.drop id = s := by
  rw [drop]
  split
  next task h => exact absurd h (hslot task)
  next => rfl

/-! ### Records -/

end System

/-- From one world to the next, the calls and the questions that were made are those among the
events, and what has fired stays fired. -/
structure World.Records (w : World σ) (events : List Event) (w' : World σ) : Prop where
  calls : w'.calls = w.calls ++ events.filterMap Event.call?
  lookups : w'.lookups = w.lookups ++ events.filterMap Event.question?
  fired : w.fired ⊆ w'.fired

namespace World

variable {w w₁ w' : World σ} {events later : List Event}

/-- A quiet step leaves the records as they are. -/
lemma Quiet.records (h : Quiet w w') : w.Records [] w' :=
  ⟨by rw [h.calls]; simp, by rw [h.lookups]; simp, h.fired⟩

/-- What a task watches, and whether it is woken, is nothing to the records. -/
lemma SameBut.records {id : TaskId} (h : SameBut id w w') : w.Records [] w' :=
  ⟨by rw [h.calls]; simp, by rw [h.lookups]; simp, h.fired.symm ▸ List.Subset.refl _⟩

/-- The records of two spans of time make up those of both together. -/
lemma Records.trans (h : w.Records events w₁) (h' : w₁.Records later w') :
    w.Records (events ++ later) w' where
  calls := by rw [h'.calls, h.calls, List.filterMap_append, List.append_assoc]
  lookups := by rw [h'.lookups, h.lookups, List.filterMap_append, List.append_assoc]
  fired := List.Subset.trans h.fired h'.fired

/-- Leaving a line or sharing an answer is no request. -/
lemma records_release {task : TaskId} {name : String} {u : Unit}
    (h : (Lookup.release task name).run w = (u, w')) : w.Records [] w' := by
  rw [Lookup.run_release] at h
  obtain ⟨-, rfl⟩ := Prod.mk.inj h
  exact ⟨by simp, by simp, List.Subset.refl _⟩

/-- To give a lookup up leaves the records as they are. -/
lemma records_abandon {task : TaskId} {name : String} {lookup : Lookup} {u : Unit}
    (h : (lookup.abandon task name).run w = (u, w')) : w.Records [] w' := by
  cases lookup with
  | fresh =>
    obtain ⟨-, rfl⟩ := Prod.mk.inj h
    exact (Quiet.refl w).records
  | queued => exact records_release h
  | asking reply => exact records_release h

end World

/-- Giving up is no request. -/
lemma Place.filterMap_abandonment (place : Place) :
    place.abandonment.filterMap Event.call? = [] ∧
      place.abandonment.filterMap Event.question? = [] := by
  cases place <;> exact ⟨rfl, rfl⟩

/-- A move of a lookup adds its question to the record, if it asks one. -/
lemma Lookup.Move.records {source : FieldSource} {id : TaskId} {name : String}
    {progress progress' : Progress (Except Error CustomField) Lookup} {w w' : World σ}
    {events : List Event} (h : Move source id name progress w events progress' w') :
    w.Records events w' := by
  cases h with
  | enter hcell =>
    exact ⟨(List.append_nil _).symm, (List.append_nil _).symm, List.Subset.refl _⟩
  | find hlookup hcell =>
    exact ⟨(List.append_nil _).symm, (List.append_nil _).symm, List.Subset.refl _⟩
  | ask hholder => exact ⟨(List.append_nil _).symm, rfl, List.Subset.refl _⟩
  | wait hpoll => exact (Activity.quiet_of_poll hpoll).records
  | fill hpoll hshare =>
    obtain ⟨-, rfl⟩ := Prod.mk.inj hshare
    have hquiet := (Activity.quiet_of_poll hpoll).records
    exact ⟨hquiet.calls, hquiet.lookups, hquiet.fired⟩
  | unknown hpoll hrelease | fail hpoll hrelease =>
    have hrecords :=
      (Activity.quiet_of_poll hpoll).records.trans (World.records_release hrelease)
    exact ⟨hrecords.calls, hrecords.lookups, hrecords.fired⟩

/-- To give a task up leaves the records as they are. -/
lemma Task.records_abandon {id : TaskId} {task : Task σ R α} {w w' : World σ} {u : Unit}
    (h : (task.abandon id).run w = (u, w')) : w.Records [] w' := by
  cases task with
  | fetch p signal complete state =>
    cases state with
    | lookingUp d name lookup rest => exact World.records_abandon h
    | fresh | requesting jql reply =>
      obtain ⟨-, rfl⟩ := Prod.mk.inj h
      exact (World.Quiet.refl w).records
  | lookup name complete state => exact World.records_abandon h
  | fire signal result | await signal result =>
    obtain ⟨-, rfl⟩ := Prod.mk.inj h
    exact (World.Quiet.refl w).records

namespace Task

variable {provider : Provider R} {id : TaskId} {phase phase' : Phase σ R α} {w w' : World σ}
  {events : List Event}

/-- What a task gives up is no request. -/
lemma records_abandonment {place : Place} (h : w.Records [] w') :
    w.Records place.abandonment w' := by
  obtain ⟨hcalls, hquestions⟩ := place.filterMap_abandonment
  exact ⟨by rw [hcalls]; exact h.calls, by rw [hquestions]; exact h.lookups, h.fired⟩

/-- A move of a task adds its question or its call to the record, if it makes one. -/
lemma Move.records (h : Move provider id phase w events phase' w') : w.Records events w' := by
  cases h with
  | refuse _ | cancelStart _ _ | start _ _ => exact (World.quiet_withContext w _).records
  | lookUp hmove | resolve hmove => exact hmove.records
  | cancelLookup _ _ hquiet habandon =>
    exact records_abandonment (hquiet.records.trans (World.records_abandon habandon))
  | request hquiet _ hcalls =>
    subst hcalls
    have hrecords := hquiet.records
    exact ⟨by rw [hquiet.calls]; rfl, hrecords.lookups, hrecords.fired⟩
  | drop habandon => exact records_abandonment (Task.records_abandon habandon)
  | watch _ hquiet | cancelRequest hquiet _ | awaitPage hquiet | endRequest hquiet | fire hquiet
  | await hquiet _ => exact hquiet.records

/-- A chain of moves adds the questions and the calls of its events to the records. -/
lemma records_of_chain (h : Chain (Move provider id) phase w events phase' w') :
    w.Records events w' := by
  induction h with
  | refl phase w => exact (World.Quiet.refl w).records
  | head hfirst _ ih => exact hfirst.records.trans ih

end Task

namespace System

variable {providers : TaskId → Provider R} {s s' : System σ R α}

/-- A turn adds the questions and the calls of its events to the records. -/
lemma Turn.records {provider : Provider R} {id : TaskId} {events : List Event}
    {slot : Slot σ R α} (h : Turn provider id s events slot s') :
    s.world.Records events s'.world := by
  obtain ⟨-, hbefore, hchain, -, hafter, -⟩ := h
  simpa using hbefore.records.trans ((Task.records_of_chain hchain).trans hafter.records)

/-- The events of a task, apart from the task. -/
lemma map_snd_entries (actor : Option TaskId) (events : List Event) :
    (events.map fun event => ((actor, event) : Entry)).map Prod.snd = events := by
  simp [Function.comp_def]

/-- Fields that are stored are no requests. -/
lemma records_stored {w : World σ} (fields : List CustomField) (cache : FieldCache) :
    w.Records (fields.map fun field => .stored field.name field) { w with cache } := by
  refine ⟨?_, ?_, List.Subset.refl _⟩ <;>
    simp [List.filterMap_map, Event.call?, Event.question?, Function.comp_def]

/-- What an action shows is recorded. -/
lemma Shows.records {action : Action σ R α} {entries : List Entry}
    (h : Shows providers s action entries) :
    s.world.Records (entries.map Prod.snd) (s.act providers action).world := by
  cases h with
  | spawn task isNew => exact (World.Quiet.refl _).records
  | poll hturn =>
    rw [map_snd_entries]
    exact hturn.records
  | @drop id task hslot =>
    rw [map_snd_entries]
    exact (turn_of_drop (providers id) hslot).records
  | pollOver hslot =>
    rw [act, poll_of_over hslot]
    exact (World.Quiet.refl _).records
  | dropOver hslot =>
    rw [act, drop_of_over hslot]
    exact (World.Quiet.refl _).records
  | insert fields =>
    rw [List.map_map]
    exact records_stored _ _
  | fire signal => exact (World.quiet_fire signal _).records
  | host change => exact (World.quiet_withContext _ _).records

/-- The record of the calls and that of the questions to the server are what a history says. -/
theorem History.records {actions : List (Action σ R α)} {entries : List Entry}
    (h : History providers s actions entries) :
    s.world.Records (entries.map Prod.snd) (s.after providers actions).world := by
  induction h with
  | nil s => exact (World.Quiet.refl _).records
  | cons hfirst _ ih =>
    rw [List.map_append]
    exact hfirst.records.trans ih

/-! ### One task in a history -/

variable {id : TaskId}

/-- A task shows what it has shown up to some point and then what it shows later. -/
lemma eventsOf_append (id : TaskId) (entries later : List Entry) :
    eventsOf id (entries ++ later) = eventsOf id entries ++ eventsOf id later :=
  List.filterMap_append

/-- All that is due to a task is shown by it. -/
@[simp] lemma eventsOf_map_self (id : TaskId) (events : List Event) :
    eventsOf id (events.map (some id, ·)) = events := by
  simp [eventsOf, List.filterMap_map]

/-- Nothing that is due to somebody else is shown by the task. -/
lemma eventsOf_map_of_ne {actor : Option TaskId} (hne : actor ≠ some id) (events : List Event) :
    eventsOf id (events.map (actor, ·)) = [] := by
  simp [eventsOf, List.filterMap_map, hne]

/-- One poll of a task has a history, which shows the calls that come to the record. -/
lemma exists_history_of_poll {task : Task σ R α}
    (hslot : s.slots[id]? = some (.running task)) :
    ∃ entries, History providers s [.poll id] entries ∧
      (s.poll (providers id) id).world.calls =
        s.world.calls ++ (eventsOf id entries).filterMap Event.call? := by
  obtain ⟨events, progress, hturn⟩ := exists_turn_of_poll (providers id) hslot
  refine ⟨_, .cons (.poll hturn) (.nil _), ?_⟩
  rw [List.append_nil, eventsOf_map_self]
  exact hturn.records.calls

/-- A turn of another task. -/
lemma Turn.getElem?_of_ne {provider : Provider R} {other : TaskId} {events : List Event}
    {slot : Slot σ R α} (h : Turn provider other s events slot s') (hne : other ≠ id) :
    s'.slots[id]? = s.slots[id]? := by
  obtain ⟨-, -, -, -, -, hslots⟩ := h
  rw [hslots, List.getElem?_set_ne hne]

/-- After its turn a task is at the slot that it has come to. -/
lemma Turn.getElem?_self {provider : Provider R} {events : List Event} {slot : Slot σ R α}
    (h : Turn provider id s events slot s') : s'.slots[id]? = some slot := by
  obtain ⟨hslot, -, -, -, -, hslots⟩ := h
  rw [hslots, List.getElem?_set_self (List.getElem?_eq_some_iff.mp hslot).1]

/-- What an action does to a task is a chain of moves of the task, which has no move if the action
is not about it. -/
lemma Shows.exists_chain {action : Action σ R α} {entries : List Entry} {slot : Slot σ R α}
    (h : Shows providers s action entries) (hslot : s.slots[id]? = some slot) :
    ∃ slot' w w', (s.act providers action).slots[id]? = some slot' ∧ s.world.fired ⊆ w.fired ∧
      Chain (Task.Move (providers id) id) (.slot slot) w (eventsOf id entries) (.slot slot') w' ∧
      w'.fired ⊆ (s.act providers action).world.fired := by
  have hfired := h.records.fired
  -- The task may have a turn, or have no part in the action.
  have hturn : ∀ {events slot' s'}, Turn (providers id) id s events slot' s' →
      ∃ slot' w w', s'.slots[id]? = some slot' ∧ s.world.fired ⊆ w.fired ∧
        Chain (Task.Move (providers id) id) (.slot slot) w events (.slot slot') w' ∧
        w'.fired ⊆ s'.world.fired := by
    intro events slot' s' hturn
    have hself := hturn.getElem?_self
    obtain ⟨htask, hbefore, hchain, -, hafter, -⟩ := hturn
    obtain rfl : slot = .running _ := Option.some.inj (hslot.symm.trans htask)
    exact ⟨slot', _, _, hself, hbefore.records.fired, hchain, hafter.records.fired⟩
  have hidle : (s.act providers action).slots[id]? = some slot → eventsOf id entries = [] →
      ∃ slot' w w', (s.act providers action).slots[id]? = some slot' ∧ s.world.fired ⊆ w.fired ∧
        Chain (Task.Move (providers id) id) (.slot slot) w (eventsOf id entries) (.slot slot') w' ∧
        w'.fired ⊆ (s.act providers action).world.fired := by
    intro hstays hnone
    rw [hnone]
    exact ⟨slot, s.world, s.world, hstays, List.Subset.refl _, .refl _ _, hfired⟩
  cases h with
  | spawn task isNew =>
    refine hidle ?_ rfl
    rw [act, List.getElem?_append_left (List.getElem?_eq_some_iff.mp hslot).1]
    exact hslot
  | @poll actor events progress hpoll =>
    by_cases hactor : actor = id
    · subst hactor
      rw [eventsOf_map_self]
      exact hturn hpoll
    · exact hidle ((hpoll.getElem?_of_ne hactor).trans hslot)
        (eventsOf_map_of_ne (by simpa using hactor) events)
  | @drop actor task htask =>
    have hdrop := turn_of_drop (providers actor) htask
    by_cases hactor : actor = id
    · subst hactor
      rw [eventsOf_map_self]
      exact hturn hdrop
    · exact hidle ((hdrop.getElem?_of_ne hactor).trans hslot)
        (eventsOf_map_of_ne (by simpa using hactor) _)
  | pollOver hover =>
    refine hidle ?_ rfl
    rw [act, poll_of_over hover]
    exact hslot
  | dropOver hover =>
    refine hidle ?_ rfl
    rw [act, drop_of_over hover]
    exact hslot
  | insert fields =>
    refine hidle hslot ?_
    rw [eventsOf, List.filterMap_map]
    simp
  | fire signal => exact hidle hslot rfl
  | host change => exact hidle hslot rfl

/-- What every move of a task keeps, and what does not depend on the world but for the signals that
have fired, holds at the end of every history. -/
theorem History.preserves {P : List Event → Phase σ R α → World σ → Prop}
    (hmove : ∀ {shown phase w events phase' w'}, P shown phase w →
      Task.Move (providers id) id phase w events phase' w' → P (shown ++ events) phase' w')
    (hworld : ∀ {shown phase w w'}, P shown phase w → w.fired ⊆ w'.fired → P shown phase w')
    {actions : List (Action σ R α)} {entries : List Entry}
    (h : History providers s actions entries) {shown : List Event} {slot : Slot σ R α}
    (hslot : s.slots[id]? = some slot) (hP : P shown (.slot slot) s.world) :
    ∃ slot', (s.after providers actions).slots[id]? = some slot' ∧
      P (shown ++ eventsOf id entries) (.slot slot') (s.after providers actions).world := by
  induction h generalizing shown slot with
  | nil s => exact ⟨slot, hslot, by simpa [eventsOf, after] using hP⟩
  | cons hfirst _ ih =>
    obtain ⟨slot', w, w', hslot', hbefore, hchain, hafter⟩ := hfirst.exists_chain hslot
    have hP' := hworld (hchain.preserves hmove (hworld hP hbefore)) hafter
    rw [eventsOf_append, ← List.append_assoc]
    exact ih hslot' hP'

end System

end IssueQuery

import IssueQuery.Execution.Lookup
import IssueQuery.Proofs.Outcome

/-!
# Moves of a lookup

A poll goes on with a task as far as possible.  It is taken apart into moves, each of which does one
thing to the world and shows some `Event`s: the server is asked, a field is stored, a lookup comes
to its end, a question is given up, a page is requested.  A `Chain` is a series of moves with all
their events.

`Lookup.Move` has the moves of a lookup: to stand in line, to take the field out of its cell, to
ask, to wait for the answer, and the three ends that an answer leads to.
`Lookup.exists_chain_of_poll` says that every poll of a lookup is a chain of moves, and that a
lookup that has to wait is `Blocked`, that is, the right to ask is another's or the answer is still
to come.
-/

namespace IssueQuery

variable {σ α : Type}

/-- What a task can be seen to do. -/
inductive Event where
  /-- The server is asked for a field. -/
  | asked (name : String)
  /-- A field is put into its cell. -/
  | stored (name : String) (field : CustomField)
  /-- A lookup comes to its end. -/
  | lookedUp (name : String) (result : Except Error CustomField)
  /-- A question to the server is given up before it is answered. -/
  | abandoned (name : String)
  /-- A page is requested. -/
  | requested (call : FetchCall)

/-- A series of moves and all events that they show, from the first to the last. -/
inductive Chain {S W : Type} (Move : S → W → List Event → S → W → Prop) :
    S → W → List Event → S → W → Prop where
  | refl (a : S) (w : W) : Chain Move a w [] a w
  | head {a b c : S} {w w₁ w' : W} {events later : List Event} :
    Move a w events b w₁ → Chain Move b w₁ later c w' → Chain Move a w (events ++ later) c w'

namespace Chain

variable {S S' W : Type} {Move : S → W → List Event → S → W → Prop}
  {Move' : S' → W → List Event → S' → W → Prop} {a b c : S} {w w₁ w' : W}
  {events later : List Event}

/-- One move is a chain. -/
lemma single (h : Move a w events b w') : Chain Move a w events b w' := by
  simpa using head h (.refl b w')

/-- One chain goes on after another. -/
lemma trans (h : Chain Move a w events b w₁) (h' : Chain Move b w₁ later c w') :
    Chain Move a w (events ++ later) c w' := by
  induction h with
  | refl a w => exact h'
  | head hfirst _ ih =>
    rw [List.append_assoc]
    exact .head hfirst (ih h')

/-- What every move keeps, if one knows what was shown before, a chain keeps. -/
lemma preserves {P : List Event → S → W → Prop} {shown : List Event}
    (hmove : ∀ {shown a w events b w'}, P shown a w → Move a w events b w' →
      P (shown ++ events) b w')
    (h : Chain Move a w events b w') (hP : P shown a w) : P (shown ++ events) b w' := by
  induction h generalizing shown with
  | refl a w => simpa using hP
  | head hfirst _ ih =>
    rw [← List.append_assoc]
    exact ih (hmove hP hfirst)

/-- Moves in one place are moves in a larger one. -/
lemma map (f : S → S') (hf : ∀ {a w events b w'}, Move a w events b w' →
      Move' (f a) w events (f b) w') (h : Chain Move a w events b w') :
    Chain Move' (f a) w events (f b) w' := by
  induction h with
  | refl a w => exact .refl (f a) w
  | head hfirst _ ih => exact .head (hf hfirst) ih

end Chain

/-! ### Quiet steps -/

namespace World

/-- Neither the cache nor what was asked from the server changes; what has fired stays fired, and
what was woken stays woken. -/
structure Quiet (w w' : World σ) : Prop where
  cache : w'.cache = w.cache
  calls : w'.calls = w.calls
  lookups : w'.lookups = w.lookups
  fired : w.fired ⊆ w'.fired
  woken : w.woken ⊆ w'.woken

variable {w w₁ w' : World σ}

/-- To do nothing is quiet. -/
lemma Quiet.refl (w : World σ) : Quiet w w :=
  ⟨rfl, rfl, rfl, List.Subset.refl _, List.Subset.refl _⟩

/-- Quiet steps after each other are quiet. -/
lemma Quiet.trans (h : Quiet w w₁) (h' : Quiet w₁ w') : Quiet w w' where
  cache := h'.cache.trans h.cache
  calls := h'.calls.trans h.calls
  lookups := h'.lookups.trans h.lookups
  fired := List.Subset.trans h.fired h'.fired
  woken := List.Subset.trans h.woken h'.woken

/-- What happens to the context alone is quiet. -/
lemma quiet_withContext (w : World σ) (c : Context σ) : Quiet w { w with toContext := c } :=
  ⟨rfl, rfl, rfl, List.Subset.refl _, List.Subset.refl _⟩

/-- To write to the log is quiet. -/
lemma quiet_of_note {event : LogEvent} {u : Unit} (h : (note event).run w = (u, w')) :
    Quiet w w' := by
  obtain ⟨-, rfl⟩ := Prod.mk.inj h
  exact quiet_withContext w _

/-- To fire a signal is quiet: it only adds to what has fired and to what is woken. -/
lemma quiet_fire (signal : Signal) (w : World σ) : Quiet w ((fire signal).run w).2 :=
  ⟨rfl, rfl, rfl, List.subset_cons_self _ _, List.subset_append_left _ _⟩

/-- To wake tasks is quiet. -/
lemma quiet_wake (tasks : List TaskId) (w : World σ) : Quiet w ((wake tasks).run w).2 :=
  ⟨rfl, rfl, rfl, List.Subset.refl _, List.subset_append_left _ _⟩

/-- Looking at a signal, and watching it, is quiet. -/
lemma quiet_of_pollCancellation {task : TaskId} {signal : Option Signal} {cancelled : Bool}
    (h : (pollCancellation task signal).run w = (cancelled, w')) :
    cancelled = w.isCancelled signal ∧ Quiet w w' := by
  rw [pollCancellation, run_get_bind] at h
  cases hcancelled : w.isCancelled signal with
  | true =>
    rw [hcancelled] at h
    obtain ⟨rfl, rfl⟩ := Prod.mk.inj h
    exact ⟨rfl, .refl w⟩
  | false =>
    rw [hcancelled] at h
    cases signal with
    | none =>
      obtain ⟨rfl, rfl⟩ := Prod.mk.inj h
      exact ⟨rfl, .refl w⟩
    | some signal =>
      obtain ⟨rfl, rfl⟩ := Prod.mk.inj h
      exact ⟨rfl, rfl, rfl, rfl, List.Subset.refl _, List.Subset.refl _⟩

end World

/-- Whatever somebody else does for a task, it is quiet. -/
lemma Activity.quiet_of_poll {task : TaskId} {activity : Activity α} {w w' : World σ}
    {progress : Progress (Except Error α) (Activity α)}
    (h : (activity.poll task).run w = (progress, w')) : World.Quiet w w' := by
  induction activity generalizing w with
  | finish result =>
    obtain ⟨rfl, rfl⟩ := Prod.mk.inj h
    exact .refl w
  | fire signal next ih => exact (World.quiet_fire signal w).trans (ih h)
  | pause next ih =>
    obtain ⟨rfl, rfl⟩ := Prod.mk.inj h
    exact World.quiet_wake [task] w
  | hang =>
    obtain ⟨rfl, rfl⟩ := Prod.mk.inj h
    exact .refl w

/-! ### Where a task stands -/

/-- Where a task stands: at no cell, in the line of a cell, or at its head with a question under
way. -/
inductive Place where
  | outside
  | waiting (name : String)
  | asking (name : String)
  deriving DecidableEq

/-- What is shown when a task leaves its place without an answer. -/
def Place.abandonment : Place → List Event
  | asking name => [.abandoned name]
  | _ => []

namespace Lookup

/-- Where a task stands in the course of a lookup. -/
def place (name : String) : Lookup → Place
  | fresh => .outside
  | queued => .waiting name
  | asking _ => .asking name

/-- The lookup cannot go on by itself: it waits for an answer, or for a cell that is another's to
fill. -/
def Blocked (task : TaskId) (name : String) (cache : FieldCache) : Lookup → Prop
  | fresh => False
  | queued => cache.cached? name = none ∧ (cache.cell name).holder? ≠ some task
  | asking _ => True

/-- After a poll: a lookup that is not at its end is blocked. -/
def Waits (task : TaskId) (name : String) (cache : FieldCache) :
    Progress (Except Error CustomField) Lookup → Prop
  | .pending lookup => lookup.Blocked task name cache
  | .ready _ => True

/-! ### Moves -/

/-- One move of the lookup of a name. -/
inductive Move (source : FieldSource) (task : TaskId) (name : String) :
    Progress (Except Error CustomField) Lookup → World σ → List Event →
      Progress (Except Error CustomField) Lookup → World σ → Prop where
  /-- The task goes to the end of the line. -/
  | enter {w : World σ} {line : List TaskId} :
    w.cache.cell name = .vacant line →
      Move source task name (.pending .fresh) w []
        (.pending .queued) { w with cache := w.cache.enter name task }
  /-- The field is there already. -/
  | find {lookup : Lookup} {w : World σ} {field : CustomField} :
    (∀ reply, lookup ≠ .asking reply) → w.cache.cell name = .filled field →
      Move source task name (.pending lookup) w [.lookedUp name (.ok field)]
        (.ready (.ok field)) w
  /-- It is the turn of the task. -/
  | ask {w : World σ} :
    (w.cache.cell name).holder? = some task →
      Move source task name (.pending .queued) w [.asked name]
        (.pending (.asking (source (w.lookups ++ [name]))))
        { w with log := w.log ++ [.populatingField name], lookups := w.lookups ++ [name] }
  | wait {reply rest : Activity (Option CustomField)} {w w' : World σ} :
    (reply.poll task).run w = (.pending rest, w') →
      Move source task name (.pending (.asking reply)) w [] (.pending (.asking rest)) w'
  /-- The answer is shared with all in line. -/
  | fill {reply : Activity (Option CustomField)} {field : CustomField} {w w₁ w' : World σ} :
    (reply.poll task).run w = (.ready (.ok (some field)), w₁) →
      (share task name field).run w₁ = ((), w') →
      Move source task name (.pending (.asking reply)) w
        [.stored name field, .lookedUp name (.ok field)] (.ready (.ok field)) w'
  /-- The server does not know the field, and the task leaves the line. -/
  | unknown {reply : Activity (Option CustomField)} {w w₁ w' : World σ} :
    (reply.poll task).run w = (.ready (.ok none), w₁) → (release task name).run w₁ = ((), w') →
      Move source task name (.pending (.asking reply)) w
        [.lookedUp name (.error (.fieldNotFound name))] (.ready (.error (.fieldNotFound name))) w'
  /-- The server fails, and the task leaves the line. -/
  | fail {reply : Activity (Option CustomField)} {e : Error} {w w₁ w' : World σ} :
    (reply.poll task).run w = (.ready (.error e), w₁) → (release task name).run w₁ = ((), w') →
      Move source task name (.pending (.asking reply)) w
        [.lookedUp name (.error e)] (.ready (.error e)) w'

/-- Only a lookup that is not at its end moves. -/
lemma Move.exists_pending {source : FieldSource} {task : TaskId} {name : String}
    {progress progress' : Progress (Except Error CustomField) Lookup} {w w' : World σ}
    {events : List Event} (h : Move source task name progress w events progress' w') :
    ∃ lookup, progress = .pending lookup := by
  cases h <;> exact ⟨_, rfl⟩

/-- What a task does to the world when it leaves a line: the next in line is woken if it was the
task's turn. -/
lemma run_release (task : TaskId) (name : String) (w : World σ) :
    (release task name).run w = ((), { w with
      cache := w.cache.leave name task
      woken := if (w.cache.cell name).holder? = some task then
          w.woken ++ ((w.cache.leave name task).cell name).holder?.toList
        else w.woken }) := by
  rw [release, run_get_bind]
  by_cases hholder : (w.cache.cell name).holder? = some task
  · simp only [hholder, if_true]
    rfl
  · simp only [hholder, if_false]
    rfl

/-! ### Polls -/

section Polls

variable {source : FieldSource} {task : TaskId} {name : String} {w w' : World σ}
  {progress : Progress (Except Error CustomField) Lookup}

/-- To go on with an answer is a single move. -/
lemma exists_move_of_receive (source : FieldSource) {reply : Activity (Option CustomField)}
    (h : (receive task name reply).run w = (progress, w')) :
    (∃ events, Move source task name (.pending (.asking reply)) w events progress w') ∧
      Waits task name w'.cache progress := by
  obtain ⟨answer, w₁, hpoll⟩ : ∃ answer w₁, (reply.poll task).run w = (answer, w₁) :=
    ⟨_, _, rfl⟩
  rw [receive, run_bind_of_eq hpoll] at h
  rcases answer with (e | _ | field) | rest
  · obtain ⟨rfl, rfl⟩ := Prod.mk.inj h
    exact ⟨⟨_, .fail hpoll rfl⟩, trivial⟩
  · obtain ⟨rfl, rfl⟩ := Prod.mk.inj h
    exact ⟨⟨_, .unknown hpoll rfl⟩, trivial⟩
  · obtain ⟨rfl, rfl⟩ := Prod.mk.inj h
    exact ⟨⟨_, .fill hpoll rfl⟩, trivial⟩
  · obtain ⟨rfl, rfl⟩ := Prod.mk.inj h
    exact ⟨⟨_, .wait hpoll⟩, trivial⟩

/-- A task in line takes the field, asks for it, or has to wait. -/
lemma exists_chain_of_tryCell (h : (tryCell source task name).run w = (progress, w')) :
    (∃ events, Chain (Move source task name) (.pending .queued) w events progress w') ∧
      Waits task name w'.cache progress := by
  rw [tryCell, run_get_bind] at h
  cases hcell : w.cache.cell name with
  | filled field =>
    rw [hcell] at h
    obtain ⟨rfl, rfl⟩ := Prod.mk.inj h
    exact ⟨⟨_, .single (.find nofun hcell)⟩, trivial⟩
  | vacant line =>
    simp only [hcell] at h
    by_cases hhead : line.head? = some task
    · rw [if_pos hhead] at h
      have hholder : (w.cache.cell name).holder? = some task := by rwa [hcell]
      obtain ⟨⟨events, hmove⟩, hwaits⟩ := exists_move_of_receive source h
      exact ⟨⟨_, .head (.ask hholder) (.single hmove)⟩, hwaits⟩
    · rw [if_neg hhead] at h
      obtain ⟨rfl, rfl⟩ := Prod.mk.inj h
      refine ⟨⟨_, .refl _ w⟩, ?_, ?_⟩
      · rw [FieldCache.cached?, hcell]
        rfl
      · rwa [hcell]

/-- Every poll of a lookup is a chain of moves, after which the lookup has come to its end or is
blocked. -/
theorem exists_chain_of_poll {lookup : Lookup}
    (h : (lookup.poll source task name).run w = (progress, w')) :
    (∃ events, Chain (Move source task name) (.pending lookup) w events progress w') ∧
      Waits task name w'.cache progress := by
  cases lookup with
  | fresh =>
    cases hcell : w.cache.cell name with
    | filled field =>
      have henter : w.cache.enter name task = w.cache := by rw [FieldCache.enter, hcell]
      change (tryCell source task name).run { w with cache := w.cache.enter name task } =
        (progress, w') at h
      rw [henter, tryCell, run_get_bind] at h
      simp only [hcell] at h
      obtain ⟨rfl, rfl⟩ := Prod.mk.inj h
      exact ⟨⟨_, .single (.find nofun hcell)⟩, trivial⟩
    | vacant line =>
      obtain ⟨⟨events, hchain⟩, hwaits⟩ := exists_chain_of_tryCell h
      exact ⟨⟨_, .head (.enter hcell) hchain⟩, hwaits⟩
  | queued => exact exists_chain_of_tryCell h
  | asking reply =>
    obtain ⟨⟨events, hmove⟩, hwaits⟩ := exists_move_of_receive source h
    exact ⟨⟨_, .single hmove⟩, hwaits⟩

end Polls

end Lookup

end IssueQuery

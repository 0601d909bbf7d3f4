import IssueQuery.Proofs.Execution.History
import IssueQuery.Query

/-!
# Terminals of a query

Whatever a terminal makes of the records, it has no part in how they come about.  A
`Query.Session` is a session in which a query is enumerated, apart from what is made of the records
at the end; `Query.Session.exists_act` says that every action leads from one to another, and
`Query.Session.exists_after` that every list of actions does.

So all terminals of a query lead to one and the same session, with the same requests and lookups,
the same errors and the same records, and differ in the verdict on these records alone.
`Query.terminals_enumerate` has the verdict of each terminal.  The list of the records is among them
twice, as the query hands it out and as a provider does that runs the local stages whether or not
there are any.
-/

namespace IssueQuery

variable {σ R α : Type}

/-! ### Tasks beside one another -/

namespace System

/-- The session after a task has come into it. -/
def join (s : System σ R α) (task : Task σ R α) : System σ R α :=
  { s with slots := s.slots ++ [.running task] }

/-- A new task joins the session. -/
lemma act_spawn (providers : TaskId → Provider R) (s : System σ R α) {task : Task σ R α}
    (isNew : task.IsNew) : s.act providers (.spawn task isNew) = s.join task := rfl

/-- What a poll does to the world and to the slot of its task does not depend on the other slots. -/
lemma exists_poll_eq_set (provider : Provider R) (w : World σ) (id : TaskId) (task : Task σ R α) :
    ∃ w' slot, ∀ slots : List (Slot σ R α), slots[id]? = some (.running task) →
      poll provider ⟨w, slots⟩ id = ⟨w', slots.set id slot⟩ := by
  obtain ⟨progress, w₁, hrun⟩ : ∃ progress w₁,
      (do World.rouse id; task.poll provider id).run w = (progress, w₁) := ⟨_, _, rfl⟩
  cases progress with
  | pending left =>
    refine ⟨w₁, .running left, fun slots hslot => ?_⟩
    rw [poll, hslot]
    simp only [hrun]
  | ready result =>
    refine ⟨((World.retire id).run w₁).2, .finished result, fun slots hslot => ?_⟩
    rw [poll, hslot]
    simp only [hrun]

/-- To drop a task likewise leaves the other slots alone. -/
lemma drop_eq_set {w : World σ} {id : TaskId} {task : Task σ R α} {slots : List (Slot σ R α)}
    (hslot : slots[id]? = some (.running task)) : drop ⟨w, slots⟩ id =
      ⟨((do task.abandon id; World.retire id).run w).2, slots.set id .dropped⟩ := by
  rw [drop, hslot]
  rfl

end System

/-! ### What is made of a page -/

/-- A page is finished by its records, and a verdict is given on these. -/
def Pipeline.handOver (p : Pipeline σ R) (verdict : List R → Except Error α) : Completion σ R α :=
  fun page => do liftExcept (verdict (← p.finish page))

/-- Without local stages a page is finished as it is. -/
lemma Pipeline.finish_of_hasLocalStages_eq_false {p : Pipeline σ R}
    (h : p.hasLocalStages = false) (page : Page R) : p.finish page = pure page.items := by
  rw [finish, h]
  rfl

/-- The verdict comes after the local stages, and has no part in them. -/
lemma Pipeline.outcome_handOver (p : Pipeline σ R) (verdict : List R → Except Error α)
    (page : Page R) (c : Context σ) : outcome (p.handOver verdict page) c =
      ((outcome (p.finish page) c).1.bind verdict, (outcome (p.finish page) c).2) := by
  rw [handOver, outcome_bind]
  rcases outcome (p.finish page) c with ⟨error | records, c'⟩
  · rfl
  · exact outcome_liftExcept (verdict records) c'

namespace Query

/-- An enumeration under way. -/
def task (q : Query σ R) (verdict : List R → Except Error α) (state : Fetch R) : Task σ R α :=
  .fetch q.pipeline q.signal (q.pipeline.handOver verdict) state

/-- A query takes no other way without local stages: its records are those that a provider hands
out that looks for local stages itself. -/
lemma records_eq_task (q : Query σ R) (verdict : List R → Except Error α) :
    q.records verdict = q.task verdict .fresh := by
  rw [records]
  split
  next => rfl
  next hnone =>
    rw [task]
    congr 1
    funext page
    rw [Pipeline.handOver,
      Pipeline.finish_of_hasLocalStages_eq_false (Bool.eq_false_of_not_eq_true hnone), pure_bind]

/-- How far an enumeration has come. -/
inductive Standing (R : Type) where
  | underWay (state : Fetch R)
  | ended (records : Except Error (List R))
  | dropped

/-- The slot of an enumeration.  The verdict is given when there are records, and only then. -/
def Standing.slot (q : Query σ R) (verdict : List R → Except Error α) : Standing R → Slot σ R α
  | underWay state => .running (q.task verdict state)
  | ended records => .finished (records.bind verdict)
  | dropped => .dropped

/-- A session in which a task enumerates a query, apart from what is made of the records. -/
structure Session (σ R α : Type) (id : TaskId) where
  world : World σ
  slots : List (Slot σ R α)
  standing : Standing R
  isThere : id < slots.length

variable {q : Query σ R}

/-- A poll of an enumeration comes to the same for all verdicts, up to the verdict itself. -/
lemma poll_task (q : Query σ R) (provider : Provider R) (id : TaskId) (state : Fetch R)
    (w : World σ) :
    (∃ state' w', ∀ verdict : List R → Except Error α,
      ((q.task verdict state).poll provider id).run w = (.pending (q.task verdict state'), w')) ∨
    (∃ (records : Except Error (List R)) (w' : World σ), ∀ verdict : List R → Except Error α,
      ((q.task verdict state).poll provider id).run w = (.ready (records.bind verdict), w')) := by
  obtain ⟨progress, w₁, hstate⟩ : ∃ progress w₁,
      (state.poll provider id q.pipeline q.signal).run w = (progress, w₁) := ⟨_, _, rfl⟩
  rcases progress with (error | page) | state'
  · refine .inr ⟨.error error, w₁, fun verdict => ?_⟩
    rw [task, Task.poll, run_bind_of_eq hstate]
    rfl
  · refine .inr ⟨(outcome (q.pipeline.finish page) w₁.toContext).1,
      { w₁ with toContext := (outcome (q.pipeline.finish page) w₁.toContext).2 },
      fun verdict => ?_⟩
    rw [task, Task.poll, run_bind_of_eq hstate]
    change (Progress.ready (outcome (q.pipeline.handOver verdict page) w₁.toContext).1,
      { w₁ with toContext := (outcome (q.pipeline.handOver verdict page) w₁.toContext).2 }) = _
    rw [Pipeline.outcome_handOver]
  · refine .inl ⟨state', w₁, fun verdict => ?_⟩
    rw [task, Task.poll, run_bind_of_eq hstate]
    rfl

namespace Session

variable {id : TaskId}

/-- The session with a verdict on the records. -/
def system (e : Session σ R α id) (q : Query σ R) (verdict : List R → Except Error α) :
    System σ R α where
  world := e.world
  slots := e.slots.set id (e.standing.slot q verdict)

/-- The enumeration comes to stand elsewhere. -/
def move (e : Session σ R α id) (w : World σ) (standing : Standing R) : Session σ R α id :=
  { e with world := w, standing }

/-- Another task comes to a new slot. -/
def setSlot (e : Session σ R α id) (w : World σ) (other : TaskId) (slot : Slot σ R α) :
    Session σ R α id where
  world := w
  slots := e.slots.set other slot
  standing := e.standing
  isThere := by simpa using e.isThere

variable {e : Session σ R α id} {verdict : List R → Except Error α}

/-- The enumeration has its slot in every system of the session. -/
lemma getElem?_slots_system :
    (e.system q verdict).slots[id]? = some (e.standing.slot q verdict) := by
  simp [system, e.isThere]

/-- While the enumeration is under way, its slot is that of a running task. -/
lemma getElem?_slots_system_of_underWay {state : Fetch R} (h : e.standing = .underWay state) :
    (e.system q verdict).slots[id]? = some (.running (q.task verdict state)) := by
  rw [getElem?_slots_system, h]
  rfl

/-- The slots of the others do not depend on the verdict. -/
lemma getElem?_slots_system_of_ne {other : TaskId} (h : other ≠ id) :
    (e.system q verdict).slots[other]? = e.slots[other]? :=
  List.getElem?_set_ne h.symm

/-- When the enumeration comes to stand elsewhere, its slot changes in every system. -/
lemma system_move (w : World σ) (standing : Standing R) : (e.move w standing).system q verdict =
    ⟨w, (e.system q verdict).slots.set id (standing.slot q verdict)⟩ := by
  simp [system, move]

/-- When another task comes to a new slot, it does so in every system. -/
lemma system_setSlot (w : World σ) {other : TaskId} (h : other ≠ id) (slot : Slot σ R α) :
    (e.setSlot w other slot).system q verdict =
      ⟨w, (e.system q verdict).slots.set other slot⟩ := by
  simp [system, setSlot, List.set_comm _ _ h]

/-! ### Actions -/

/-- A poll of the enumeration itself. -/
lemma exists_poll_self (e : Session σ R α id) (q : Query σ R) (provider : Provider R) :
    ∃ e' : Session σ R α id, ∀ verdict,
      (e.system q verdict).poll provider id = e'.system q verdict := by
  cases hstanding : e.standing with
  | underWay state =>
    obtain ⟨state', w', hpoll⟩ | ⟨records, w', hpoll⟩ :=
      q.poll_task (α := α) provider id state ((World.rouse id).run e.world).2
    · refine ⟨e.move w' (.underWay state'), fun verdict => ?_⟩
      have hrun : (do World.rouse id; (q.task verdict state).poll provider id).run
          (e.system q verdict).world = (.pending (q.task verdict state'), w') := hpoll verdict
      rw [System.poll, getElem?_slots_system_of_underWay hstanding, system_move]
      simp only [hrun]
      rfl
    · refine ⟨e.move ((World.retire id).run w').2 (.ended records), fun verdict => ?_⟩
      have hrun : (do World.rouse id; (q.task verdict state).poll provider id).run
          (e.system q verdict).world = (.ready (records.bind verdict), w') := hpoll verdict
      rw [System.poll, getElem?_slots_system_of_underWay hstanding, system_move]
      simp only [hrun]
      rfl
  | ended records | dropped =>
    refine ⟨e, fun verdict => System.poll_of_over ?_⟩
    intro task hrunning
    rw [getElem?_slots_system, hstanding] at hrunning
    cases hrunning

/-- Every poll in a session comes to the same for all verdicts. -/
lemma exists_poll (e : Session σ R α id) (q : Query σ R) (provider : Provider R)
    (other : TaskId) : ∃ e' : Session σ R α id, ∀ verdict,
      (e.system q verdict).poll provider other = e'.system q verdict := by
  obtain rfl | hne := eq_or_ne other id
  · exact e.exists_poll_self q provider
  by_cases hrunning : ∃ task, e.slots[other]? = some (.running task)
  · obtain ⟨task, hslot⟩ := hrunning
    obtain ⟨w', slot, hpoll⟩ := System.exists_poll_eq_set provider e.world other task
    refine ⟨e.setSlot w' other slot, fun verdict => ?_⟩
    rw [system_setSlot w' hne]
    exact hpoll _ ((getElem?_slots_system_of_ne hne).trans hslot)
  · refine ⟨e, fun verdict => System.poll_of_over ?_⟩
    rw [getElem?_slots_system_of_ne hne]
    exact not_exists.mp hrunning

/-- An enumeration that is given up holds the same things whatever the verdict would have been. -/
lemma exists_drop (e : Session σ R α id) (q : Query σ R) (other : TaskId) :
    ∃ e' : Session σ R α id, ∀ verdict,
      (e.system q verdict).drop other = e'.system q verdict := by
  obtain rfl | hne := eq_or_ne other id
  · cases hstanding : e.standing with
    | underWay state =>
      refine ⟨e.move ((do state.abandon other; World.retire other).run e.world).2 .dropped,
        fun verdict => ?_⟩
      rw [system_move]
      exact System.drop_eq_set (getElem?_slots_system_of_underWay hstanding)
    | ended records | dropped =>
      refine ⟨e, fun verdict => System.drop_of_over ?_⟩
      intro task hrunning
      rw [getElem?_slots_system, hstanding] at hrunning
      cases hrunning
  by_cases hrunning : ∃ task, e.slots[other]? = some (.running task)
  · obtain ⟨task, hslot⟩ := hrunning
    refine ⟨e.setSlot ((do task.abandon other; World.retire other).run e.world).2 other .dropped,
      fun verdict => ?_⟩
    rw [system_setSlot _ hne]
    exact System.drop_eq_set ((getElem?_slots_system_of_ne hne).trans hslot)
  · refine ⟨e, fun verdict => System.drop_of_over ?_⟩
    rw [getElem?_slots_system_of_ne hne]
    exact not_exists.mp hrunning

/-- Every action goes on with a session in the same way for all verdicts. -/
lemma exists_act (e : Session σ R α id) (q : Query σ R) (providers : TaskId → Provider R)
    (action : System.Action σ R α) : ∃ e' : Session σ R α id, ∀ verdict,
      (e.system q verdict).act providers action = e'.system q verdict := by
  cases action with
  | spawn task isNew =>
    refine ⟨⟨e.world, e.slots ++ [.running task], e.standing, ?_⟩, fun verdict => ?_⟩
    · rw [List.length_append]
      exact Nat.lt_add_right _ e.isThere
    · simp only [System.act_spawn, System.join, system, List.set_append_left id _ e.isThere]
  | poll other => exact e.exists_poll q (providers other) other
  | drop other => exact e.exists_drop q other
  | insert fields =>
    exact ⟨{ e with world.cache := (e.world.cache.insertAll fields).1 }, fun _ => rfl⟩
  | fire signal => exact ⟨{ e with world := ((World.fire signal).run e.world).2 }, fun _ => rfl⟩
  | host change => exact ⟨{ e with world.host := change e.world.host }, fun _ => rfl⟩

/-- And so does every list of actions. -/
theorem exists_after (e : Session σ R α id) (q : Query σ R) (providers : TaskId → Provider R)
    (actions : List (System.Action σ R α)) : ∃ e' : Session σ R α id, ∀ verdict,
      (e.system q verdict).after providers actions = e'.system q verdict := by
  induction actions generalizing e with
  | nil => exact ⟨e, fun _ => rfl⟩
  | cons action actions ih =>
    obtain ⟨e₁, hact⟩ := e.exists_act q providers action
    obtain ⟨e', hafter⟩ := ih e₁
    refine ⟨e', fun verdict => ?_⟩
    rw [← hafter verdict, ← hact verdict]
    rfl

end Session

/-! ### Terminals -/

/-- The session with a terminal that has just come in. -/
lemma exists_join (q : Query σ R) (s : System σ R α) :
    ∃ e : Session σ R α s.slots.length, ∀ verdict,
      s.join (q.records verdict) = e.system q verdict := by
  refine ⟨⟨s.world, s.slots ++ [.dropped], .underWay .fresh, by simp⟩, fun verdict => ?_⟩
  rw [records_eq_task, System.join, Session.system, List.set_append_right _ _ le_rfl]
  simp [Standing.slot]

/-- All terminals of a query enumerate it in the same way, wherever they come into a session and
whatever happens then: the world, with all requests, lookups and notes in the log, and the other
tasks come to be the same, and so does how far the enumeration itself has come.  When it ends with
an error, that is the result of each terminal; when it ends with records, the terminals differ in
what they make of these. -/
theorem terminals_enumerate (q : Query σ R) (providers : TaskId → Provider R) (s : System σ R α)
    (actions : List (System.Action σ R α)) :
    ∃ e : Session σ R α s.slots.length,
      (∀ result, (s.join (q.toList result)).after providers actions =
        e.system q fun records => .ok (result records)) ∧
      (∀ result : List R → α,
        (s.join (.records q.pipeline q.signal fun records => .ok (result records))).after
          providers actions = e.system q fun records => .ok (result records)) ∧
      (∀ result, (s.join (q.count result)).after providers actions =
        e.system q fun records => .ok (result records.length)) ∧
      (∀ result, (s.join (q.any result)).after providers actions =
        e.system q fun records => .ok (result (records ≠ []))) ∧
      (∀ result, ∃ verdict,
        (s.join (q.first result)).after providers actions = e.system q verdict ∧
          (∀ r records, verdict (r :: records) = .ok (result r)) ∧
          verdict [] = .error .emptySequence) ∧
      (∀ result, (s.join (q.first? result)).after providers actions =
        e.system q fun records => .ok (result records.head?)) ∧
      (∀ result, ∃ verdict,
        (s.join (q.single result)).after providers actions = e.system q verdict ∧
          (∀ r, verdict [r] = .ok (result r)) ∧ verdict [] = .error .emptySequence ∧
          ∀ records, 1 < records.length → verdict records = .error .moreThanOneElement) ∧
      (∀ {β : Type} (f : R → β) result, (s.join (q.select f result)).after providers actions =
        e.system q fun records => .ok (result (records.map f))) ∧
      (∀ {β : Type} (f : β → R → β) start result,
        (s.join (q.fold f start result)).after providers actions =
          e.system q fun records => .ok (result (records.foldl f start))) := by
  obtain ⟨joined, hjoin⟩ := q.exists_join s
  obtain ⟨e, hafter⟩ := joined.exists_after q providers actions
  have hrecords (verdict : List R → Except Error α) :
      (s.join (q.records verdict)).after providers actions = e.system q verdict := by
    rw [hjoin verdict, hafter verdict]
  refine ⟨e, fun result => hrecords _, fun result => ?_, fun result => hrecords _, fun result => ?_,
    fun result => ⟨_, hrecords _, fun r records => rfl, rfl⟩, fun result => hrecords _,
    fun result => ⟨_, hrecords _, fun r => rfl, rfl, fun records hlength => ?_⟩,
    fun f result => hrecords _, fun f start result => hrecords _⟩
  case refine_1 =>
    rw [← hrecords, records_eq_task]
    rfl
  case refine_2 =>
    rw [← hrecords, any]
    congr 3
    funext records
    cases records <;> rfl
  case refine_3 =>
    match records, hlength with
    | _ :: _ :: _, _ => rfl

-- Two records come back, and a local filter keeps none of them.
example :
    let q : Query Unit ℕ := Query.all.filterLocal fun r => return 2 < r
    let provider : Provider ℕ := ⟨fun _ => .finish (.ok ⟨[1, 2], 0, 2, 2⟩), fun _ => .hang, false,
      .issue, {}⟩
    let s : System Unit ℕ ℕ := .ofTasks (.initial ()) [q.count id, q.first id]
    (s.after (fun _ => provider) [.poll 0, .poll 1]).slots.map Slot.result? =
      [some (.ok 0), some (.error .emptySequence)] := by
  cbv

end Query

end IssueQuery

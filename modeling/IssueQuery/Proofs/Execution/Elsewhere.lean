import IssueQuery.Proofs.Execution.Cancellation
import IssueQuery.Proofs.Execution.History
import IssueQuery.Proofs.Execution.Keeping

/-!
# What other tasks do

Whatever happens in a system besides the polls of one task and the dropping of it comes down to what
a `Waiting.Run` allows others to do between the steps of this task: calls that fire its signal, and
what happens aside of the task and of the signal (`System.elsewhere_act`).  `LeavesAlone` says so of
a computation, and it goes through all computations that tasks are made of.
-/

namespace IssueQuery

variable {σ R α β : Type} {task other : TaskId} {signal : Signal}

/-! ### Worlds -/

namespace World

/-- From one world to the next others have done something, and all their calls have come to their
end. -/
def Elsewhere (task : TaskId) (signal : Signal) (w w' : World σ) : Prop :=
  ∀ calling rings, ∃ rings', Relation.ReflTransGen (Scene.Elsewhere task signal)
    ⟨w, calling, rings⟩ ⟨w', calling, rings'⟩

variable {w w₁ w' : World σ}

/-- Others may do nothing. -/
lemma Elsewhere.refl (w : World σ) : Elsewhere task signal w w := fun _ rings => ⟨rings, .refl⟩

/-- What others do at one time and then at another they do altogether. -/
lemma Elsewhere.trans (h : Elsewhere task signal w w₁) (h' : Elsewhere task signal w₁ w') :
    Elsewhere task signal w w' := by
  intro calling rings
  obtain ⟨rings₁, hfirst⟩ := h calling rings
  obtain ⟨rings', hrest⟩ := h' calling rings₁
  exact ⟨rings', hfirst.trans hrest⟩

/-- What happens aside is one of the things that others may do. -/
lemma Aside.elsewhere (h : Aside task signal w w') : Elsewhere task signal w w' :=
  fun _ rings => ⟨rings, .single (.aside h)⟩

/-- Firing a signal is a call, or happens aside of the signal. -/
lemma elsewhere_fire (fired : Signal) (w : World σ) :
    Elsewhere task signal w ((fire fired).run w).2 := by
  rw [fire_eq]
  by_cases hsame : fired = signal
  · subst hsame
    intro calling rings
    refine ⟨rings + 1, ?_⟩
    have hraise : Scene.Elsewhere task fired ⟨w, calling, rings⟩
        ⟨((raise fired).run w).2, calling + 1, rings⟩ := .raise _
    have hring : Scene.Elsewhere task fired ⟨((raise fired).run w).2, calling + 1, rings⟩
        ⟨((do raise fired; ring fired : StateM (World σ) Unit).run w).2, calling, rings + 1⟩ := by
      have hmove : Scene.Elsewhere task fired ⟨((raise fired).run w).2, calling + 1, rings⟩ _ :=
        .ring (Nat.succ_pos calling)
      rw [Scene.ring, if_pos rfl] at hmove
      exact hmove
    exact .trans (.single hraise) (.single hring)
  · refine Aside.elsewhere ⟨?_, fun hwatched => ?_, List.mem_append_left _⟩
    · have hne : (signal == fired) = false := beq_false_of_ne (Ne.symm hsame)
      change (fired :: w.fired).contains signal = w.fired.contains signal
      rw [List.contains_cons, hne, Bool.false_or]
    · exact List.mem_filter.mpr ⟨hwatched, by simpa using Ne.symm hsame⟩

/-- What leaves signals and tasks as they are happens aside. -/
lemma aside_of_eq (hfired : w'.fired = w.fired) (hwatchers : w'.watchers = w.watchers)
    (hwoken : w'.woken = w.woken) : Aside task signal w w' where
  hasFired := by rw [hasFired, hfired, hasFired]
  watchers h := hwatchers ▸ h
  woken h := hwoken ▸ h

end World

/-! ### Computations -/

/-- A computation does nothing but what others may do. -/
def LeavesAlone (task : TaskId) (signal : Signal) (x : StateM (World σ) β) : Prop :=
  ∀ w, World.Elsewhere task signal w (x.run w).2

namespace LeavesAlone

variable {x : StateM (World σ) α} {f : α → StateM (World σ) β}

/-- To return a value leaves everybody alone. -/
lemma pure (a : α) : LeavesAlone task signal (pure a : StateM (World σ) α) :=
  fun w => .refl w

/-- Two parts that leave a task alone do so together, whatever the first one comes to. -/
lemma bind (hx : LeavesAlone task signal x) (hf : ∀ a, LeavesAlone task signal (f a)) :
    LeavesAlone task signal (x >>= f) :=
  fun w => (hx w).trans (hf _ _)

/-- Looking at the world changes nothing. -/
lemma get : LeavesAlone task signal (MonadState.get : StateM (World σ) (World σ)) :=
  fun w => .refl w

/-- What happens aside is left alone. -/
lemma modify {g : World σ → World σ} (h : ∀ w, World.Aside task signal w (g w)) :
    LeavesAlone task signal (modifyGet fun w => ((), g w) : StateM (World σ) Unit) :=
  fun w => (h w).elsewhere

/-- A change to the context, to the cache or to a record of the world. -/
lemma record {g : World σ → World σ} (hfired : ∀ w, (g w).fired = w.fired := by exact fun _ => rfl)
    (hwatchers : ∀ w, (g w).watchers = w.watchers := by exact fun _ => rfl)
    (hwoken : ∀ w, (g w).woken = w.woken := by exact fun _ => rfl) :
    LeavesAlone task signal (modifyGet fun w => ((), g w) : StateM (World σ) Unit) :=
  modify fun w => World.aside_of_eq (hfired w) (hwatchers w) (hwoken w)

/-! #### Signals and wake-ups -/

/-- Work on the context leaves the task alone. -/
lemma onContext (action : StateM (Context σ) α) :
    LeavesAlone task signal (World.onContext action) :=
  fun _ => World.Aside.elsewhere (World.aside_of_eq rfl rfl rfl)

/-- An entry of the log is nothing to the task. -/
lemma note (event : LogEvent) :
    LeavesAlone task signal (World.note event : StateM (World σ) Unit) :=
  onContext _

/-- Any signal may be fired, also the one that the task waits for. -/
lemma fire (fired : Signal) : LeavesAlone task signal (World.fire fired : StateM (World σ) Unit) :=
  World.elsewhere_fire fired

/-- Whoever is woken, the task stays woken if it was. -/
lemma wake (tasks : List TaskId) :
    LeavesAlone task signal (World.wake tasks : StateM (World σ) Unit) :=
  modify fun _ => ⟨rfl, id, List.mem_append_left tasks⟩

/-- Whoever watches a signal, the task goes on watching its own. -/
lemma watch (watched : Signal) (other : TaskId) :
    LeavesAlone task signal (World.watch watched other : StateM (World σ) Unit) :=
  modify fun _ => ⟨rfl, List.mem_append_left [(watched, other)], id⟩

/-- Another task may stop watching. -/
lemma unwatch (hother : other ≠ task) :
    LeavesAlone task signal (World.unwatch other : StateM (World σ) Unit) :=
  modify fun _ => ⟨rfl, fun h => List.mem_filter.mpr ⟨h, by simpa using hother.symm⟩, id⟩

/-- Another task may be polled. -/
lemma rouse (hother : other ≠ task) :
    LeavesAlone task signal (World.rouse other : StateM (World σ) Unit) :=
  modify fun _ => ⟨rfl, id, fun h => List.mem_filter.mpr ⟨h, by simpa using hother.symm⟩⟩

/-- Another task may come to its end. -/
lemma retire (hother : other ≠ task) :
    LeavesAlone task signal (World.retire other : StateM (World σ) Unit) :=
  (unwatch hother).bind fun _ => rouse hother

/-- Another task looks at a signal. -/
lemma pollCancellation (hother : other ≠ task) (watched : Option Signal) :
    LeavesAlone task signal (World.pollCancellation other watched : StateM (World σ) Bool) := by
  refine get.bind fun w => ?_
  split
  · exact pure true
  · cases watched with
    | none => exact (pure ()).bind fun _ => pure false
    | some watched =>
      exact ((unwatch hother).bind fun _ => watch watched other).bind fun _ => pure false

/-- What others may do is kept by all that another task does short of its request. -/
lemma keeping (hother : other ≠ task) :
    Keeping other (World.Elsewhere task signal : World σ → World σ → Prop) where
  refl := .refl
  trans := .trans
  fire := fire
  wake := wake
  look := pollCancellation hother
  cache _ _ := World.Aside.elsewhere (World.aside_of_eq rfl rfl rfl)
  lookups _ _ := World.Aside.elsewhere (World.aside_of_eq rfl rfl rfl)
  note event _ := note event

/-! #### Fetches -/

variable (watched : Option Signal)

/-- The request of another task leaves this one alone. -/
lemma request (hother : other ≠ task) (provider : Provider R) (d : Directive) :
    LeavesAlone task signal (Fetch.request provider other watched d :
      StateM (World σ) (Fetch.Outcome R)) := by
  refine (note _).bind fun _ => get.bind fun w => ?_
  split
  · exact pure _
  · exact bind record fun _ =>
      get.bind fun _ => (keeping hother).awaitPage watched d.jql _

/-- Another fetch goes on after its lookups, or waits for them, and leaves this task alone. -/
lemma afterLookups (hother : other ≠ task) (provider : Provider R) (d : Directive)
    (progress : Progress (Except Error Unit) Fetch.Lookups) :
    LeavesAlone task signal (Fetch.afterLookups provider other watched d progress :
      StateM (World σ) (Fetch.Outcome R)) := by
  rcases progress with (e | u) | lookups
  · exact pure _
  · exact request watched hother provider d
  · exact (keeping hother).awaitLookups provider watched d lookups

/-- Another fetch begins and leaves this task alone. -/
lemma start (hother : other ≠ task) (provider : Provider R) (p : Pipeline σ R) :
    LeavesAlone task signal (Fetch.start provider other p watched) := by
  refine (onContext _).bind fun compiled => ?_
  rcases compiled with e | d
  · exact pure _
  · refine get.bind fun w => ?_
    split
    · exact pure _
    · split
      · exact bind ((keeping hother).pollLookups _ _ .fresh _) fun progress =>
          afterLookups watched hother provider d progress
      · exact request watched hother provider d

/-! #### Tasks -/

/-- A poll of another task of any kind leaves this one alone. -/
lemma poll_task (hother : other ≠ task) (provider : Provider R) (polled : Task σ R α) :
    LeavesAlone task signal (polled.poll provider other) := by
  cases polled with
  | fetch p watched complete state =>
    have hpoll : LeavesAlone task signal (state.poll provider other p watched) := by
      cases state with
      | fresh => exact start watched hother provider p
      | lookingUp d name lookup rest =>
        exact bind ((keeping hother).pollLookups _ name lookup rest) fun progress =>
          afterLookups watched hother provider d progress
      | requesting jql reply => exact (keeping hother).awaitPage watched jql reply
    refine hpoll.bind fun o => ?_
    rcases o with (e | page) | state
    · exact pure _
    · exact (onContext _).bind fun _ => pure _
    · exact pure _
  | lookup name complete state =>
    refine bind ((keeping hother).poll_lookup _ name state) fun answer => ?_
    rcases answer with result | state <;> exact pure _
  | fire fired result => exact (fire fired).bind fun _ => pure _
  | await watched result =>
    refine (pollCancellation hother (some watched)).bind fun cancelled => ?_
    split <;> exact pure _

/-- Another task is given up and leaves this one alone. -/
lemma abandon_task (hother : other ≠ task) (dropped : Task σ R α) :
    LeavesAlone task signal (dropped.abandon other) := by
  cases dropped with
  | fetch p watched complete state =>
    cases state with
    | lookingUp d name lookup rest => exact (keeping hother).abandon_lookup name lookup
    | fresh | requesting jql reply => exact pure ()
  | lookup name complete state => exact (keeping hother).abandon_lookup name state
  | fire fired result | await watched result => exact pure ()

end LeavesAlone

/-! ### Actions -/

namespace System

variable {providers : TaskId → Provider R} {s : System σ R α} {id : TaskId}

/-- A poll of another task. -/
lemma elsewhere_poll (hother : other ≠ id) (provider : Provider R) (s : System σ R α) :
    World.Elsewhere id signal s.world (s.poll provider other).world := by
  rw [poll]
  split
  next task hslot =>
    have hpoll : LeavesAlone id signal (do World.rouse other; task.poll provider other) :=
      (LeavesAlone.rouse hother).bind fun _ => .poll_task hother provider task
    obtain ⟨progress, w, hrun⟩ : ∃ progress w,
        (do World.rouse other; task.poll provider other).run s.world = (progress, w) :=
      ⟨_, _, rfl⟩
    have hw := hpoll s.world
    simp only [hrun] at hw ⊢
    cases progress with
    | pending left => exact hw
    | ready result => exact hw.trans (LeavesAlone.retire hother w)
  next => exact .refl _

/-- Another task is dropped. -/
lemma elsewhere_drop (hother : other ≠ id) (s : System σ R α) :
    World.Elsewhere id signal s.world (s.drop other).world := by
  rw [drop]
  split
  next task hslot =>
    have hdrop : LeavesAlone id signal (do task.abandon other; World.retire other) :=
      (LeavesAlone.abandon_task hother task).bind fun _ => .retire hother
    exact hdrop s.world
  next => exact .refl _

/-- Whatever happens in a system besides the polls of a task and the dropping of it. -/
theorem elsewhere_act (providers : TaskId → Provider R) (s : System σ R α) (action : Action σ R α)
    (hpoll : action ≠ .poll id) (hdrop : action ≠ .drop id) :
    World.Elsewhere id signal s.world (s.act providers action).world := by
  cases action with
  | spawn task isNew => exact .refl _
  | poll other =>
    have hother : other ≠ id := fun h => hpoll (congrArg _ h)
    exact elsewhere_poll hother _ s
  | drop other =>
    have hother : other ≠ id := fun h => hdrop (congrArg _ h)
    exact elsewhere_drop hother s
  | insert fields => exact World.Aside.elsewhere (World.aside_of_eq rfl rfl rfl)
  | fire fired => exact World.elsewhere_fire fired s.world
  | host change => exact World.Aside.elsewhere (World.aside_of_eq rfl rfl rfl)

end System

end IssueQuery

import IssueQuery.Proofs.Execution.Announcement
import IssueQuery.Proofs.Execution.Elsewhere

/-!
# A fetch heeds its signal

`Waiting.step` takes a poll apart.  Here it is put together again: a poll that nobody interrupts is
`Fetch.awaitPage` (`Waiting.exists_run_of_awaitPage`), and so whatever happens in a system from the
call of the fetcher on is a run of `Waiting` (`System.exists_run`).

`System.fetch_heeds_signal` is the result: wherever the calls fall that fire the signal, a fetch
comes to the result of its request, unless the request has to wait in a poll that sees the signal
fired; it ends as cancelled in that poll, and it is always woken to have it.
-/

namespace IssueQuery

variable {σ R α : Type}

/-! ### Polls that nobody interrupts -/

namespace Waiting

/-- Nobody else does anything. -/
def Nobody (_ _ : Scene σ) : Prop := False

variable {others : Scene σ → Scene σ → Prop} {task : TaskId} {signal : Signal} {jql : String}
  {s s₁ s' : Scene σ} {wait wait₁ wait' : Waiting R} {sights : List Sight} {w w' : World σ}
  {rings : Nat}

/-- A run that begins with a known step. -/
lemma Run.own_of_eq {seen : Sight} (hrunning : ∀ result, wait ≠ ended result)
    (hstep : wait.step task signal jql s = (wait₁, s₁)) (hsight : wait.sight signal s = seen)
    (h : Run others task signal jql wait₁ s₁ sights wait' s') :
    Run others task signal jql wait s (seen :: sights) wait' s' := by
  subst hsight
  refine .own hrunning ?_
  rw [hstep]
  exact h

/-- A run that begins with what others do. -/
lemma Run.elsewheres (hmoves : Relation.ReflTransGen others s s₁)
    (h : Run others task signal jql wait s₁ sights wait' s') :
    Run others task signal jql wait s sights wait' s' := by
  induction hmoves using Relation.ReflTransGen.head_induction_on with
  | refl => exact h
  | head hmove _ ih => exact .elsewhere hmove ih

/-- How a task stands when the poll of its request has come to its end. -/
def asked (watch : Watch) : Progress (Except Error (Page R)) (Activity (Page R)) → Waiting R
  | .ready result => ended result
  | .pending rest => looking rest watch

/-- The request is polled at one go.  A signal that it fires takes two steps, and the poll comes to
what the request comes to in any world. -/
lemma exists_run_of_poll (signal : Signal) (jql : String) (watch : Watch) (rings : Nat)
    {reply : Activity (Page R)} {answer : Progress (Except Error (Page R)) (Activity (Page R))}
    (h : (reply.poll task).run w = (answer, w')) :
    ∃ sights rings', Run Nobody task signal jql (asking reply watch) ⟨w, 0, rings⟩ sights
      (asked watch answer) ⟨w', 0, rings'⟩ ∧ .begins ∉ sights := by
  obtain rfl : reply.advance = answer := by rw [← reply.fst_run_poll task w, h]
  induction reply generalizing w rings with
  | fire rung next ih =>
    have hnext : (next.poll task).run ((World.ring rung).run ((World.raise rung).run w).2).2 =
        (next.advance, w') := by
      rwa [Activity.poll, World.fire_eq] at h
    obtain ⟨sights, rings', hrun, hsame⟩ := ih (if rung = signal then rings + 1 else rings) hnext
    exact ⟨.nothing :: .nothing :: sights, rings', .own (by simp) (.own (by simp [step]) hrun),
      by simpa⟩
  | finish result | pause next | hang =>
    obtain ⟨-, rfl⟩ := Prod.mk.inj h
    exact ⟨[.polled], rings, .own (by simp) (.refl _ _), by simp⟩

/-- A task that finds the signal fired ends as cancelled. -/
lemma run_of_fired (task : TaskId) (jql : String) (rings : Nat) (reply : Activity (Page R))
    (hfired : w.hasFired signal = true) :
    Run Nobody task signal jql (looking reply .fresh) ⟨w, 0, rings⟩ [.nothing, .saw true]
      (ended (.error .cancelled)) ⟨((World.note (.requestCancelled jql)).run w).2, 0, rings⟩ := by
  have hprepared : (looking reply (.prepared rings)).step task signal jql ⟨w, 0, rings⟩ =
      (ended (.error .cancelled),
        ⟨((World.note (.requestCancelled jql)).run w).2, 0, rings⟩) := if_pos hfired
  have hsight : (looking reply (.prepared rings)).sight signal ⟨w, 0, rings⟩ = .saw true :=
    congrArg Sight.saw hfired
  exact .own (by simp) (.own_of_eq (by simp [step]) hprepared hsight (.refl _ _))

/-- A task that waits on a handle of before, and that was not notified, goes on waiting. -/
lemma run_of_unnotified (task : TaskId) (signal : Signal) (jql : String)
    (reply : Activity (Page R)) (w : World σ) :
    Run Nobody task signal jql (looking reply (.unfired 0)) ⟨w, 0, 0⟩ [.nothing]
      (resting reply (.unfired 0))
      ⟨((do World.unwatch task; World.watch signal task).run w).2, 0, 0⟩ :=
  .own (by simp) (.refl _ _)

/-- How a task stands after a poll that has come to some outcome. -/
inductive AtEndOf (jql : String) : Fetch.Outcome R → Waiting R → Prop where
  | ready (result : Except Error (Page R)) : AtEndOf jql (.ready result) (ended result)
  | pending (reply : Activity (Page R)) :
    AtEndOf jql (.pending (.requesting jql reply)) (resting reply (.unfired 0))

/-- The task looks at its signal at one go, with a handle of before or with none. -/
lemma exists_run_of_look {reply : Activity (Page R)} {watch : Watch} {o : Fetch.Outcome R}
    (hwatch : watch = .fresh ∨ watch = .unfired 0)
    (hsound : (looking reply watch).Sound task signal ⟨w, 0, rings⟩)
    (h : (do
      if ← World.pollCancellation task (some signal) then
        World.note (.requestCancelled jql)
        return .ready (.error .cancelled)
      else return .pending (.requesting jql reply) : StateM (World σ) (Fetch.Outcome R)).run w =
        (o, w')) :
    ∃ sights wait, Run Nobody task signal jql (looking reply watch) ⟨w, 0, rings⟩ sights wait
      ⟨w', 0, rings⟩ ∧ AtEndOf jql o wait ∧ .begins ∉ sights := by
  have hflag : w.hasFired signal = true ↔ 0 < 0 + rings + 0 := hsound.flag
  cases hfired : w.hasFired signal with
  | true =>
    have hcancelled : (World.pollCancellation task (some signal)).run w = (true, w) := by
      rw [World.pollCancellation, run_get_bind, World.isCancelled, Option.any_some, hfired]
      rfl
    rw [run_bind_of_eq hcancelled] at h
    obtain ⟨rfl, rfl⟩ := Prod.mk.inj h
    have hfresh := run_of_fired task jql rings reply hfired
    rcases hwatch with rfl | rfl
    · exact ⟨_, _, hfresh, .ready _, by simp⟩
    · -- The handle of before was notified, so the task prepares another one.
      have hnotified : 0 ≠ rings := by
        have hpos := hflag.mp hfired
        omega
      have hagain : (looking reply (.unfired 0)).step task signal jql ⟨w, 0, rings⟩ =
          (looking reply .fresh, ⟨w, 0, rings⟩) := if_neg hnotified
      exact ⟨_, _, .own_of_eq (by simp) hagain rfl hfresh, .ready _, by simp [sight]⟩
  | false =>
    obtain rfl : rings = 0 := by
      have hnone := mt hflag.mpr (by simp [hfired])
      omega
    have hwatched : (World.pollCancellation task (some signal)).run w =
        (false, ((do World.unwatch task; World.watch signal task).run w).2) := by
      rw [World.pollCancellation, run_get_bind, World.isCancelled, Option.any_some, hfired]
      rfl
    rw [run_bind_of_eq hwatched] at h
    obtain ⟨rfl, rfl⟩ := Prod.mk.inj h
    have hrest := run_of_unnotified task signal jql reply w
    rcases hwatch with rfl | rfl
    · have hprepared : (looking reply (.prepared 0)).step task signal jql ⟨w, 0, 0⟩ =
          (looking reply (.unfired 0), ⟨w, 0, 0⟩) := if_neg (by simp [hfired])
      have hsight : (looking reply (.prepared 0)).sight signal ⟨w, 0, 0⟩ = .saw false :=
        congrArg Sight.saw hfired
      exact ⟨_, _, .own (by simp) (.own_of_eq (by simp [step]) hprepared hsight hrest),
        .pending reply, by simp [sight]⟩
    · exact ⟨_, _, hrest, .pending reply, by simp⟩

/-- What is proved of runs in company holds of runs that nobody interrupts. -/
lemma Run.inCompany (h : Run Nobody task signal jql wait s sights wait' s') :
    Run (Scene.Elsewhere task signal) task signal jql wait s sights wait' s' :=
  h.mono fun _ _ => False.elim

/-- A poll that nobody interrupts, from the poll of the request on, is `Fetch.awaitPage`. -/
theorem exists_run_of_awaitPage {reply : Activity (Page R)} {watch : Watch} {o : Fetch.Outcome R}
    (hwatch : watch = .fresh ∨ watch = .unfired 0)
    (hsound : (asking reply watch).Sound task signal ⟨w, 0, rings⟩)
    (h : (Fetch.awaitPage task (some signal) jql reply).run w = (o, w')) :
    ∃ sights wait rings', Run Nobody task signal jql (asking reply watch) ⟨w, 0, rings⟩ sights
      wait ⟨w', 0, rings'⟩ ∧ AtEndOf jql o wait ∧ .begins ∉ sights := by
  obtain ⟨answer, w₁, hpoll⟩ : ∃ answer w₁, (reply.poll task).run w = (answer, w₁) := ⟨_, _, rfl⟩
  obtain ⟨sights, rings₁, hrun, hsame⟩ := exists_run_of_poll signal jql watch rings hpoll
  rw [Fetch.awaitPage, run_bind_of_eq hpoll] at h
  cases answer with
  | ready result =>
    obtain ⟨rfl, rfl⟩ := Prod.mk.inj h
    exact ⟨sights, _, rings₁, hrun, .ready result, hsame⟩
  | pending rest =>
    obtain ⟨later, wait, hlook, hend, hlater⟩ :=
      exists_run_of_look hwatch (hrun.inCompany.sound hsound) h
    exact ⟨_, wait, rings₁, hrun.trans hlook, hend, by simp [hsame, hlater]⟩

/-- A poll that nobody interrupts. -/
lemma exists_run_of_rouse {reply : Activity (Page R)} {o : Fetch.Outcome R}
    (hsound : (resting reply (.unfired 0)).Sound task signal ⟨w, 0, rings⟩)
    (h : (do World.rouse task; Fetch.awaitPage task (some signal) jql reply).run w = (o, w')) :
    ∃ sights wait rings', Run Nobody task signal jql (resting reply (.unfired 0)) ⟨w, 0, rings⟩
      (.begins :: sights) wait ⟨w', 0, rings'⟩ ∧ AtEndOf jql o wait ∧ .begins ∉ sights := by
  have hawake : (asking reply (.unfired 0)).Sound task signal
      ⟨((World.rouse task).run w).2, 0, rings⟩ := ⟨hsound.flag, nofun, hsound.unfired, nofun⟩
  obtain ⟨sights, wait, rings', hrun, hend, hsame⟩ :=
    exists_run_of_awaitPage (.inr rfl) hawake h
  exact ⟨sights, wait, rings', .own (by simp) hrun, hend, hsame⟩

/-- A task that has ended has no steps. -/
lemma Run.of_ended {result : Except Error (Page R)}
    (h : Run others task signal jql (ended result) s sights wait' s') :
    sights = [] ∧ wait' = ended result := by
  generalize hend : ended result = wait at h
  induction h with
  | refl wait s => exact ⟨rfl, rfl⟩
  | own hrunning _ _ => exact absurd hend.symm (hrunning result)
  | elsewhere _ _ ih => exact ih hend

/-- What can be relied on in a run from the first poll of a request on, with a moment in its middle
and a later one. -/
structure Heeds (task : TaskId) (signal : Signal) (reply : Activity (Page R)) (before : List Sight)
    (wait : Waiting R) (middle : Scene σ) (later : List Sight) (wait' : Waiting R)
    (last : Scene σ) : Prop where
  /-- The result is that of the request, unless a poll in which the request has to wait sees the
  signal fired, which is the last. -/
  follows : wait.Follows reply before
  staysFired : middle.world.hasFired signal = true → last.world.hasFired signal = true
  /-- Nothing is polled after the end. -/
  rests : ∀ result, wait = ended result → later = [] ∧ wait' = wait
  /-- When a call that fires the signal has returned, a task that waits has been woken, -/
  woken : middle.world.hasFired signal = true → middle.calling = 0 →
    ∀ rest watch, wait = resting rest watch → task ∈ middle.world.woken
  /-- and it does not come to wait for another poll any more. -/
  isLast : middle.world.hasFired signal = true → middle.calling = 0 →
    ∀ rest watch, wait' = resting rest watch → later = []
  /-- A poll comes to its end. -/
  bounded : .begins ∉ later → later.length ≤ wait.effort signal middle

/-- A task heeds its signal, whatever others do between its steps. -/
theorem Run.heeds {reply : Activity (Page R)} {before later : List Sight}
    {first middle last : Scene σ}
    (hflag : first.world.hasFired signal = true ↔ 0 < first.calling + first.rings)
    (hbefore : Run (Scene.Elsewhere task signal) task signal jql (asking reply .fresh) first before
      wait middle)
    (hlater : Run (Scene.Elsewhere task signal) task signal jql wait middle later wait' last) :
    Heeds task signal reply before wait middle later wait' last := by
  have hsound : wait.Sound task signal middle := hbefore.sound (sound_asking reply hflag)
  refine ⟨hbefore.follows, hlater.hasFired, ?_, ?_, ?_, ?_⟩
  · rintro result rfl
    exact hlater.of_ended
  · rintro hfired hcalling rest watch rfl
    exact hsound.woken hfired hcalling
  · rintro hfired hcalling rest watch rfl
    refine hlater.eq_nil_of_resting hsound ?_
    have hpos := hsound.flag.mp hfired
    omega
  · intro hsame
    exact (Nat.le_add_right _ _).trans (hlater.length_add_effort_le hsound hsame)

/-- How a fetch stands in a system.  While it waits, the world is that of its run; when the request
has come to its end, the fetch is finished with what is made of the result in the world that the
request has left. -/
inductive Stands (p : Pipeline σ R) (signal : Signal) (complete : Completion σ R α) (jql : String) :
    Waiting R → World σ → Slot σ R α → World σ → Prop where
  | pending (reply : Activity (Page R)) (w : World σ) :
    Stands p signal complete jql (resting reply (.unfired 0)) w
      (.running (.fetch p (some signal) complete (.requesting jql reply))) w
  | failed (e : Error) (w w' : World σ) :
    Stands p signal complete jql (ended (.error e)) w (.finished (.error e)) w'
  | finished (page : Page R) (w w' : World σ) :
    Stands p signal complete jql (ended (.ok page)) w
      (.finished (outcome (complete page) w.toContext).1) w'

end Waiting

/-! ### The call of the fetcher -/

namespace Fetch

variable {provider : Provider R} {id : TaskId} {p : Pipeline σ R} {signal : Option Signal}
  {o : Outcome R} {w w' : World σ}

/-- A poll that calls the fetcher: it does so while the signal has not fired, and then it awaits the
page. -/
def MakesCall (provider : Provider R) (id : TaskId) (signal : Option Signal) (w : World σ)
    (o : Outcome R) (w' : World σ) : Prop :=
  ∃ call w₁, w₁.isCancelled signal = false ∧ w₁.calls = w.calls ++ [call] ∧
    (awaitPage id signal call.jql (provider.fetcher w₁.calls)).run w₁ = (o, w')

/-- A poll of a fetch makes no call, or goes on to await the page. -/
lemma makesCall_of_poll {state : Fetch R}
    (h : (state.poll provider id p signal).run w = (o, w')) :
    w'.calls = w.calls ∨ MakesCall provider id signal w o w' := by
  cases polled h with
  | unrequested hquiet => exact .inl hquiet.calls
  | cancelled hcalls => exact .inl hcalls
  | @called call w₁ _ _ hannounces hawait =>
    have hcalls : w₁.calls ++ [call] = w.calls ++ [call] := by rw [hannounces.calls]
    exact .inr ⟨call, { w₁ with calls := w₁.calls ++ [call] }, hannounces.unfired, hcalls, hawait⟩

end Fetch

/-! ### Systems -/

namespace System

variable {provider : Provider R} {providers : TaskId → Provider R} {s : System σ R α} {id : TaskId}
  {p : Pipeline σ R} {signal : Signal} {complete : Completion σ R α} {jql : String}
  {slot : Slot σ R α} {wait : Waiting R} {rings : Nat} {w : World σ}

/-- What a poll of a fetch makes of its slot; after the outcome no more requests are made. -/
lemma exists_slot_of_poll {signal : Option Signal} {state : Fetch R} {o : Fetch.Outcome R}
    (hslot : s.slots[id]? = some (.running (.fetch p signal complete state)))
    (h : (do World.rouse id; state.poll provider id p signal).run s.world = (o, w)) :
    (s.poll provider id).world.calls = w.calls ∧
      ∃ slot, (s.poll provider id).slots[id]? = some slot ∧
        match o with
        | .pending state =>
          slot = .running (.fetch p signal complete state) ∧ (s.poll provider id).world = w
        | .ready (.error e) => slot = .finished (.error e)
        | .ready (.ok page) => slot = .finished (outcome (complete page) w.toContext).1 := by
  have hlt : id < s.slots.length := (List.getElem?_eq_some_iff.mp hslot).1
  have hset (slot : Slot σ R α) : (s.slots.set id slot)[id]? = some slot :=
    List.getElem?_set_self hlt
  have hstate : (state.poll provider id p signal).run ((World.rouse id).run s.world).2 = (o, w) := h
  obtain ⟨progress, w', hpoll⟩ : ∃ progress w',
      (do World.rouse id; Task.poll provider id (.fetch p signal complete state)).run
        s.world = (progress, w') := ⟨_, _, rfl⟩
  have htask : (Task.poll provider id (.fetch p signal complete state)).run
      ((World.rouse id).run s.world).2 = (progress, w') := hpoll
  rw [Task.poll, run_bind_of_eq hstate] at htask
  rw [poll, hslot]
  simp only [hpoll]
  rcases o with (e | page) | state <;> obtain ⟨rfl, rfl⟩ := Prod.mk.inj htask
  · exact ⟨rfl, _, hset _, rfl⟩
  · exact ⟨rfl, _, hset _, rfl⟩
  · exact ⟨rfl, _, hset _, rfl, rfl⟩

/-- A poll that ends while the request is awaited, or with its result. -/
lemma exists_stands_of_poll {state : Fetch R} {o : Fetch.Outcome R}
    (hslot : s.slots[id]? = some (.running (.fetch p (some signal) complete state)))
    (h : (do World.rouse id; state.poll provider id p (some signal)).run s.world = (o, w))
    (hend : Waiting.AtEndOf jql o wait) :
    ∃ slot, (s.poll provider id).slots[id]? = some slot ∧
      wait.Stands p signal complete jql w slot (s.poll provider id).world := by
  obtain ⟨-, slot, hslot', hshape⟩ := exists_slot_of_poll hslot h
  refine ⟨slot, hslot', ?_⟩
  cases hend with
  | pending reply =>
    obtain ⟨rfl, hworld⟩ := hshape
    rw [hworld]
    exact .pending reply w
  | ready result =>
    cases result with
    | error e =>
      obtain rfl := hshape
      exact .failed e w _
    | ok page =>
      obtain rfl := hshape
      exact .finished page w _

/-- A poll in which a fetch calls the fetcher goes on to await the page of this call. -/
lemma exists_awaitPage_of_call {state : Fetch R} {o : Fetch.Outcome R} {call : FetchCall}
    (hslot : s.slots[id]? = some (.running (.fetch p (some signal) complete state)))
    (hcall : (s.poll provider id).world.calls = s.world.calls ++ [call])
    (h : (do World.rouse id; state.poll provider id p (some signal)).run s.world = (o, w)) :
    ∃ w₁, w₁.hasFired signal = false ∧
      (Fetch.awaitPage id (some signal) call.jql
        (provider.fetcher (s.world.calls ++ [call]))).run w₁ = (o, w) := by
  obtain ⟨hcalls, -⟩ := exists_slot_of_poll hslot h
  have hstate : (state.poll provider id p (some signal)).run ((World.rouse id).run s.world).2 =
      (o, w) := h
  rw [hcalls] at hcall
  rcases Fetch.makesCall_of_poll hstate with hnone | ⟨call', w₁, hfired, hcall', hawait⟩
  · have hsame : s.world.calls = s.world.calls ++ [call] := hnone.symm.trans hcall
    simp at hsame
  · have hcalls' : w₁.calls = s.world.calls ++ [call] :=
      (Fetch.unrequested_of_awaitPage hawait).calls.symm.trans hcall
    have hlast : s.world.calls ++ [call'] = s.world.calls ++ [call] := hcall'.symm.trans hcalls'
    obtain ⟨-, hlast⟩ := List.append_inj' hlast rfl
    obtain rfl := List.singleton_inj.mp hlast
    rw [hcalls'] at hawait
    exact ⟨w₁, hfired, hawait⟩

/-- Whether an action polls a task that is running. -/
def polls (s : System σ R α) (id : TaskId) : Action σ R α → Bool
  | .poll other => other == id && s.slots[id]?.any fun
    | .running _ => true
    | _ => false
  | _ => false

/-- How often a task is polled before it is over. -/
def turns (providers : TaskId → Provider R) (id : TaskId) :
    System σ R α → List (Action σ R α) → Nat
  | _, [] => 0
  | s, action :: actions =>
    (s.polls id action).toNat + turns providers id (s.act providers action) actions

/-- What happens to other tasks does not change the slot of a task. -/
lemma getElem?_act (providers : TaskId → Provider R) {action : Action σ R α}
    (hslot : s.slots[id]? = some slot) (hpoll : action ≠ .poll id) (hdrop : action ≠ .drop id) :
    (s.act providers action).slots[id]? = some slot := by
  cases action with
  | spawn task isNew =>
    rw [act, List.getElem?_append_left (List.getElem?_eq_some_iff.mp hslot).1, hslot]
  | poll other =>
    have hother : other ≠ id := fun h => hpoll (congrArg _ h)
    by_cases hrunning : ∃ task, s.slots[other]? = some (.running task)
    · obtain ⟨task, htask⟩ := hrunning
      obtain ⟨events, progress, hturn⟩ := exists_turn_of_poll (providers other) htask
      exact (hturn.getElem?_of_ne hother).trans hslot
    · rw [act, poll_of_over (not_exists.mp hrunning), hslot]
  | drop other =>
    have hother : other ≠ id := fun h => hdrop (congrArg _ h)
    by_cases hrunning : ∃ task, s.slots[other]? = some (.running task)
    · obtain ⟨task, htask⟩ := hrunning
      exact ((turn_of_drop (providers other) htask).getElem?_of_ne hother).trans hslot
    · rw [act, drop_of_over (not_exists.mp hrunning), hslot]
  | insert fields | fire fired | host change => exact hslot

/-- An action that is no poll of the task gives it no turn. -/
lemma polls_of_ne {action : Action σ R α} (hpoll : action ≠ .poll id) :
    s.polls id action = false := by
  cases action with
  | poll other =>
    have hother : other ≠ id := fun h => hpoll (congrArg _ h)
    rw [polls, beq_false_of_ne hother, Bool.false_and]
  | _ => rfl

/-- An action that does not drop a fetch goes on with its run, by a poll of the fetch or by what
others do. -/
lemma exists_run_of_act (providers : TaskId → Provider R) {action : Action σ R α}
    (hdrop : action ≠ .drop id) (hslot : s.slots[id]? = some slot)
    (hstands : wait.Stands p signal complete jql w slot s.world)
    (hsound : wait.Sound id signal ⟨w, 0, rings⟩) :
    ∃ sights wait' w' rings' slot',
      Waiting.Run (Scene.Elsewhere id signal) id signal jql wait ⟨w, 0, rings⟩ sights
        wait' ⟨w', 0, rings'⟩ ∧
      (s.act providers action).slots[id]? = some slot' ∧
      wait'.Stands p signal complete jql w' slot' (s.act providers action).world ∧
      sights.count .begins = (s.polls id action).toNat := by
  by_cases hpoll : action = .poll id
  · subst hpoll
    -- There is nothing left to poll when the request has come to its end.
    have hover : ∀ result, slot = .finished result →
        s.act providers (.poll id) = s ∧ s.polls id (.poll id : Action σ R α) = false := by
      rintro result rfl
      have hidle : ∀ task, s.slots[id]? ≠ some (.running task) := by simp [hslot]
      exact ⟨poll_of_over hidle, by simp [polls, hslot]⟩
    cases hstands with
    | pending reply =>
      obtain ⟨o, w', hpoll⟩ : ∃ o w', (do World.rouse id
                                          Fetch.awaitPage id (some signal) jql reply).run
          s.world = (o, w') := ⟨_, _, rfl⟩
      obtain ⟨sights, wait', rings', hrun, hend, hsame⟩ := Waiting.exists_run_of_rouse hsound hpoll
      obtain ⟨slot', hslot', hstands'⟩ : ∃ slot,
          (s.poll (providers id) id).slots[id]? = some slot ∧
            wait'.Stands p signal complete jql w' slot (s.poll (providers id) id).world :=
        exists_stands_of_poll hslot hpoll hend
      refine ⟨_, wait', w', rings', slot', hrun.inCompany, hslot', hstands', ?_⟩
      have hpolls : s.polls id (.poll id : Action σ R α) = true := by simp [polls, hslot]
      rw [hpolls, List.count_cons_self, List.count_eq_zero_of_not_mem hsame]
      rfl
    | failed e | finished page =>
      obtain ⟨hstays, hnone⟩ := hover _ rfl
      rw [hstays, hnone]
      refine ⟨[], _, _, rings, _, .refl _ _, hslot, ?_, rfl⟩
      constructor
  · have hslot' := getElem?_act providers hslot hpoll hdrop
    have hmoved : World.Elsewhere id signal s.world (s.act providers action).world :=
      elsewhere_act providers s action hpoll hdrop
    obtain ⟨rings', hmoves⟩ := hmoved 0 rings
    rw [polls_of_ne hpoll]
    cases hstands with
    | pending reply =>
      exact ⟨[], _, _, rings', _, .elsewheres hmoves (.refl _ _), hslot', .pending reply _, rfl⟩
    | failed e => exact ⟨[], _, w, rings, _, .refl _ _, hslot', .failed e w _, rfl⟩
    | finished page => exact ⟨[], _, w, rings, _, .refl _ _, hslot', .finished page w _, rfl⟩

/-- Whatever happens in a system, as long as a fetch is not dropped, is a run of the fetch, with one
poll for each turn. -/
theorem exists_run {actions : List (Action σ R α)} (hdrop : .drop id ∉ actions)
    (hslot : s.slots[id]? = some slot) (hstands : wait.Stands p signal complete jql w slot s.world)
    (hsound : wait.Sound id signal ⟨w, 0, rings⟩) :
    ∃ sights wait' w' rings' slot',
      Waiting.Run (Scene.Elsewhere id signal) id signal jql wait ⟨w, 0, rings⟩ sights
        wait' ⟨w', 0, rings'⟩ ∧
      (s.after providers actions).slots[id]? = some slot' ∧
      wait'.Stands p signal complete jql w' slot' (s.after providers actions).world ∧
      sights.count .begins = turns providers id s actions := by
  induction actions generalizing s slot wait w rings with
  | nil => exact ⟨[], wait, w, rings, slot, .refl _ _, hslot, hstands, rfl⟩
  | cons action actions ih =>
    rw [List.mem_cons, not_or] at hdrop
    obtain ⟨sights, wait₁, w₁, rings₁, slot₁, hrun, hslot₁, hstands₁, hfirst⟩ :=
      exists_run_of_act providers (Ne.symm hdrop.1) hslot hstands hsound
    obtain ⟨later, wait', w', rings', slot', hrest, hslot', hstands', hlater⟩ :=
      ih hdrop.2 hslot₁ hstands₁ (hrun.sound hsound)
    refine ⟨sights ++ later, wait', w', rings', slot', hrun.trans hrest, hslot', hstands', ?_⟩
    rw [List.count_append, hfirst, hlater, turns]

/-- From the poll with the call of the fetcher on, whatever happens in a system is a run of the
fetch that begins with the first poll of the request, before the signal has fired. -/
theorem exists_run_of_call {state : Fetch R} {call : FetchCall} {actions : List (Action σ R α)}
    (hslot : s.slots[id]? = some (.running (.fetch p (some signal) complete state)))
    (hcall : (s.poll (providers id) id).world.calls = s.world.calls ++ [call])
    (hdrop : .drop id ∉ actions) :
    ∃ w sights wait w' rings slot, w.hasFired signal = false ∧
      Waiting.Run (Scene.Elsewhere id signal) id signal call.jql
        (.asking ((providers id).fetcher (s.world.calls ++ [call])) .fresh) ⟨w, 0, 0⟩ sights
        wait ⟨w', 0, rings⟩ ∧
      sights.count .begins = turns providers id (s.poll (providers id) id) actions ∧
      (s.after providers (.poll id :: actions)).slots[id]? = some slot ∧
      wait.Stands p signal complete call.jql w' slot
        (s.after providers (.poll id :: actions)).world := by
  obtain ⟨o, w₁, hpoll⟩ : ∃ o w₁,
      (do World.rouse id; state.poll (providers id) id p (some signal)).run s.world = (o, w₁) :=
    ⟨_, _, rfl⟩
  obtain ⟨w, hfired, hawait⟩ := exists_awaitPage_of_call hslot hcall hpoll
  have hstart : (Waiting.asking ((providers id).fetcher (s.world.calls ++ [call])) .fresh).Sound
      id signal ⟨w, 0, 0⟩ := Waiting.sound_asking _ (by simp [hfired])
  -- The poll with the call is the first poll of the request.
  obtain ⟨sights, wait, rings, hfirst, hend, hsame⟩ :=
    Waiting.exists_run_of_awaitPage (.inl rfl) hstart hawait
  obtain ⟨slot, hslot₁, hstands⟩ := exists_stands_of_poll hslot hpoll hend
  obtain ⟨later, wait', w', rings', slot', hrest, hslot', hstands', hturns⟩ :=
    exists_run hdrop hslot₁ hstands (hfirst.inCompany.sound hstart)
  refine ⟨w, _, wait', w', rings', slot', hfired, hfirst.inCompany.trans hrest, ?_, hslot',
    hstands'⟩
  rw [List.count_append, List.count_eq_zero_of_not_mem hsame, hturns, Nat.zero_add]

/-- What has fired stays fired. -/
lemma fired_subset_after (providers : TaskId → Provider R) (s : System σ R α)
    (actions later : List (Action σ R α)) :
    (s.after providers actions).world.fired ⊆
      (s.after providers (actions ++ later)).world.fired := by
  obtain ⟨entries, hhistory⟩ := exists_history providers (s.after providers actions) later
  have hafter : s.after providers (actions ++ later) =
      (s.after providers actions).after providers later := List.foldl_append
  rw [hafter]
  exact hhistory.records.fired

/-- A fetch heeds its signal from the call of the fetcher on.

* Whatever happens in the system after the poll with the call, the fetch takes the steps of a run
  that begins with the first poll of the request, before the signal has fired; its polls are those
  of the run, and a fetch that waits while its signal has fired has been woken.
* In every such run, and in those where calls fire the signal at any other moment, also in the
  middle of a poll, the fetch `Heeds` its signal.
* The steps of a poll that nobody interrupts are `Fetch.awaitPage`.
* What has fired stays fired. -/
theorem fetch_heeds_signal {state : Fetch R} {call : FetchCall}
    (hslot : s.slots[id]? = some (.running (.fetch p (some signal) complete state)))
    (hcall : (s.poll (providers id) id).world.calls = s.world.calls ++ [call]) :
    let reply := (providers id).fetcher (s.world.calls ++ [call])
    (∀ actions, .drop id ∉ actions →
      let s' := s.after providers (.poll id :: actions)
      ∃ w sights wait w' rings slot, w.hasFired signal = false ∧
        Waiting.Run (Scene.Elsewhere id signal) id signal call.jql (.asking reply .fresh) ⟨w, 0, 0⟩
          sights wait ⟨w', 0, rings⟩ ∧
        sights.count .begins = turns providers id (s.poll (providers id) id) actions ∧
        s'.slots[id]? = some slot ∧ wait.Stands p signal complete call.jql w' slot s'.world ∧
        (∀ task, slot = .running task → s'.world.hasFired signal = true → id ∈ s'.world.woken)) ∧
    (∀ {wait wait' : Waiting R} {first middle last : Scene σ} {before later : List Sight},
      (first.world.hasFired signal = true ↔ 0 < first.calling + first.rings) →
      Waiting.Run (Scene.Elsewhere id signal) id signal call.jql (.asking reply .fresh) first before
        wait middle →
      Waiting.Run (Scene.Elsewhere id signal) id signal call.jql wait middle later wait' last →
      Waiting.Heeds id signal reply before wait middle later wait' last) ∧
    (∀ {rest : Activity (Page R)} {watch : Watch} {w w' : World σ} {rings : Nat}
        {o : Fetch.Outcome R}, watch = .fresh ∨ watch = .unfired 0 →
      (Waiting.asking rest watch).Sound id signal ⟨w, 0, rings⟩ →
      (Fetch.awaitPage id (some signal) call.jql rest).run w = (o, w') →
      ∃ sights wait rings', Waiting.Run Waiting.Nobody id signal call.jql (.asking rest watch)
        ⟨w, 0, rings⟩ sights wait ⟨w', 0, rings'⟩ ∧ Waiting.AtEndOf call.jql o wait ∧
          .begins ∉ sights) ∧
    ∀ actions later, (s.after providers actions).world.fired ⊆
      (s.after providers (actions ++ later)).world.fired := by
  refine ⟨fun actions hdrop => ?_, Waiting.Run.heeds, Waiting.exists_run_of_awaitPage,
    fired_subset_after providers s⟩
  obtain ⟨w, sights, wait, w', rings, slot, hfired, hrun, hturns, hslot', hstands⟩ :=
    exists_run_of_call hslot hcall hdrop
  refine ⟨w, sights, wait, w', rings, slot, hfired, hrun, hturns, hslot', hstands, ?_⟩
  rintro task rfl hfired'
  have hsound := hrun.sound (Waiting.sound_asking _ (by simp [hfired]))
  cases hstands with
  | pending reply => exact hsound.woken hfired' rfl

/-- A server that never answers. -/
def hangingProvider : Provider Nat where
  fetcher _ := .hang
  source _ := .hang
  checksFields := false

/-- A fetch of everything that may be stopped. -/
def stoppableSystem : System Unit Nat (List Nat) :=
  .ofTasks (.initial ())
    [.fetch (.ofDeclared []) (some "stop") (fun page => pure page.items) .fresh]

/-- The signal fires while the fetch waits for its second poll, in which it ends as cancelled. -/
theorem fetch_heeds_signal_stop :
    (stoppableSystem.after (fun _ => hangingProvider) [.poll 0, .fire "stop", .poll 0]).slots =
      [.finished (.error .cancelled)] ∧
    ∃ (w w' : World Unit) (rings : Nat) (sights : List Sight),
      Waiting.Run (Scene.Elsewhere 0 "stop") 0 "stop" ""
        (.asking (.hang : Activity (Page Nat)) .fresh) ⟨w, 0, 0⟩ sights
        (.ended (.error .cancelled)) ⟨w', 0, rings⟩ ∧
      sights.count .begins = 1 ∧
      ∃ before, sights = before ++ [.saw true] ∧ .saw true ∉ before := by
  refine ⟨by cbv, ?_⟩
  have hcall : (stoppableSystem.poll hangingProvider 0).world.calls =
      stoppableSystem.world.calls ++ [⟨"", none, 0, false⟩] := by
    cbv
  obtain ⟨hsystem, hruns, -, -⟩ := @fetch_heeds_signal _ _ _ (fun _ => hangingProvider)
    stoppableSystem 0 (.ofDeclared []) "stop" (fun page => pure page.items) .fresh _ rfl hcall
  obtain ⟨w, sights, wait, w', rings, slot, hunfired, hrun, hcount, hslot, hstands, -⟩ :=
    hsystem [.fire "stop", .poll 0] (by simp)
  have hone : sights.count .begins = 1 := hcount.trans (by cbv)
  have hflag : w.hasFired "stop" = true ↔ 0 < 0 + 0 := by simp [hunfired]
  have hfollows := (hruns hflag hrun (.refl _ _)).follows
  cbv at hslot
  obtain rfl := Option.some.inj hslot
  cases hstands with
  | failed e =>
    obtain ⟨-, ⟨rest, hrest, hready, -⟩ | ⟨-, -, hseen⟩⟩ := hfollows
    · rw [hone] at hrest
      obtain rfl := Progress.pending.inj hrest
      simp [Activity.advance] at hready
    · exact ⟨w, w', rings, sights, hrun, hone, hseen⟩

end System

end IssueQuery

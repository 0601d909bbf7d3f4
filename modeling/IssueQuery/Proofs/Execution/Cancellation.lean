import IssueQuery.Proofs.Execution.Moves

/-!
# Waiting for a page or for a signal

A poll of a fetch that waits for its page is one step for the world, but not for a signal: the calls
that fire a signal are made at any time, also while the task is in the middle of its poll.  Such a
call does two things, it sets the flag of the signal (`World.raise`) and then wakes those who wait
(`World.ring`).

Here a poll is taken apart as far as the calls can tell (`Waiting.step`).  The request is polled
first.  If it has to wait, the task looks at the signal: it prepares a handle, which knows how often
the waiters were notified up to now, then it reads the flag, and then it waits on the handle, unless
there was a notification since the handle was prepared.  Between any two of these steps others may
do what they like (`Scene.Elsewhere`), and a `Waiting.Run` is what comes of it.

That the handle is prepared before the flag is read is what `Waiting.Sound` rests on: when a task
waits on a handle and the flag is set all the same, a notification is still to come, or it has come
and has woken the task.
-/

namespace IssueQuery

variable {σ R α : Type}

/-! ### Firing in two steps -/

namespace World

/-- The first half of firing a signal: its flag is set. -/
def raise (signal : Signal) : StateM (World σ) Unit :=
  modify fun w => { w with fired := signal :: w.fired }

/-- The second half of firing a signal: all tasks that watch it are woken. -/
def ring (signal : Signal) : StateM (World σ) Unit :=
  modify fun w => { w with
    watchers := w.watchers.filter (·.1 ≠ signal)
    woken := w.woken ++ (w.watchers.filter (·.1 = signal)).map Prod.snd }

/-- To fire a signal at one go is to set its flag and then to wake those who watch it. -/
lemma fire_eq (signal : Signal) :
    (fire signal : StateM (World σ) Unit) = (do raise signal; ring signal) := rfl

/-- A flag that is set is that of the one signal, and the flags of the others stay as they were. -/
lemma hasFired_raise (rung signal : Signal) (w : World σ) :
    ((raise rung).run w).2.hasFired signal = (signal == rung || w.hasFired signal) :=
  List.contains_cons

/-- What happens aside of a task and of a signal: the signal does not fire, the task goes on
watching it, and it stays woken. -/
structure Aside (task : TaskId) (signal : Signal) (w w' : World σ) : Prop where
  hasFired : w'.hasFired signal = w.hasFired signal
  watchers : (signal, task) ∈ w.watchers → (signal, task) ∈ w'.watchers
  woken : task ∈ w.woken → task ∈ w'.woken

end World

/-- The world, and how far the calls have come that fire a signal. -/
structure Scene (σ : Type) where
  world : World σ
  /-- The number of calls of others that have set the flag and have not notified the waiters. -/
  calling : Nat
  /-- How often the waiters were notified. -/
  rings : Nat

namespace Scene

/-- The scene after something has happened in the world. -/
def on (s : Scene σ) (action : StateM (World σ) Unit) : Scene σ :=
  { s with world := (action.run s.world).2 }

/-- The scene for a signal after the waiters of a signal were notified, of this one or another. -/
def ring (s : Scene σ) (signal rung : Signal) : Scene σ :=
  { s.on (World.ring rung) with rings := if rung = signal then s.rings + 1 else s.rings }

/-- What others do between two steps of a task: a call sets the flag of the signal, a call notifies
the waiters, or something happens aside. -/
inductive Elsewhere (task : TaskId) (signal : Signal) : Scene σ → Scene σ → Prop where
  | raise (s : Scene σ) :
    Elsewhere task signal s { s.on (World.raise signal) with calling := s.calling + 1 }
  | ring {s : Scene σ} :
    0 < s.calling → Elsewhere task signal s { s.ring signal signal with calling := s.calling - 1 }
  | aside {s : Scene σ} {w : World σ} :
    World.Aside task signal s.world w → Elsewhere task signal s { s with world := w }

/-- Nobody makes a signal unfired. -/
lemma Elsewhere.hasFired {task : TaskId} {signal : Signal} {s s' : Scene σ}
    (h : Elsewhere task signal s s') (hfired : s.world.hasFired signal = true) :
    s'.world.hasFired signal = true := by
  cases h with
  | raise =>
    change ((World.raise signal).run s.world).2.hasFired signal = true
    rw [World.hasFired_raise, hfired, Bool.or_true]
  | ring hcalling => exact hfired
  | aside haside => exact haside.hasFired.trans hfired

/-- Nobody takes back a notification. -/
lemma Elsewhere.rings_le {task : TaskId} {signal : Signal} {s s' : Scene σ}
    (h : Elsewhere task signal s s') : s.rings ≤ s'.rings := by
  cases h with
  | ring hcalling =>
    change s.rings ≤ if signal = signal then s.rings + 1 else s.rings
    rw [if_pos rfl]
    exact Nat.le_succ _
  | _ => exact le_rfl

end Scene

/-! ### Polls of an activity -/

namespace Activity

/-- How far an activity comes in one poll, apart from what it does to the world. -/
def advance : Activity α → Progress (Except Error α) (Activity α)
  | finish result => .ready result
  | fire _ next => next.advance
  | pause next => .pending next
  | hang => .pending hang

/-- How far an activity has come after some polls; it is not polled again when it is at its end. -/
def advanced (activity : Activity α) : Nat → Progress (Except Error α) (Activity α)
  | 0 => .pending activity
  | n + 1 =>
    match activity.advanced n with
    | .ready result => .ready result
    | .pending rest => rest.advance

/-- The number of signals that an activity fires in its next poll. -/
def signals : Activity α → Nat
  | fire _ next => next.signals + 1
  | _ => 0

/-- A poll leaves what the activity comes to, whatever the world is. -/
lemma fst_run_poll (activity : Activity α) (task : TaskId) (w : World σ) :
    ((activity.poll task).run w).1 = activity.advance := by
  induction activity generalizing w with
  | fire signal next ih => exact ih _
  | _ => rfl

end Activity

/-- One more poll goes on with what was left by the polls before. -/
lemma Activity.advanced_succ_of_pending {activity rest : Activity α} {n : Nat}
    (h : activity.advanced n = .pending rest) : activity.advanced (n + 1) = rest.advance := by
  rw [advanced, h]

/-! ### The steps of a poll -/

/-- How far a task has come that waits for a signal. -/
inductive Watch where
  /-- No handle is prepared. -/
  | fresh
  /-- A handle is prepared, when the waiters had been notified so often; the flag is to be read. -/
  | prepared (rings : Nat)
  /-- The flag was not set, and the handle is to be waited on. -/
  | unfired (rings : Nat)
  deriving DecidableEq

/-- How far a task has come that waits for its request or for a signal. -/
inductive Waiting (R : Type) where
  /-- The task waits for its next poll. -/
  | resting (reply : Activity (Page R)) (watch : Watch)
  /-- The request is polled. -/
  | asking (reply : Activity (Page R)) (watch : Watch)
  /-- In its poll the request has set the flag of a signal and is to notify the waiters. -/
  | ringing (rung : Signal) (reply : Activity (Page R)) (watch : Watch)
  /-- The request has to wait, and the task looks at its signal. -/
  | looking (reply : Activity (Page R)) (watch : Watch)
  | ended (result : Except Error (Page R))

/-- What a step lets one see. -/
inductive Sight where
  /-- A poll begins. -/
  | begins
  /-- The poll of the request has come to its end. -/
  | polled
  /-- The flag of the signal was read. -/
  | saw (fired : Bool)
  | nothing
  deriving DecidableEq

namespace Waiting

/-- The handle of the task. -/
def watch : Waiting R → Watch
  | resting _ watch | asking _ watch | ringing _ _ watch | looking _ watch => watch
  | ended _ => .fresh

/-- The number of calls in which the task itself has to notify the waiters of a signal. -/
def ownCalls (signal : Signal) : Waiting R → Nat
  | ringing rung _ _ => if rung = signal then 1 else 0
  | _ => 0

/-- One step of a task that waits for its request or for a signal. -/
def step (task : TaskId) (signal : Signal) (jql : String) (s : Scene σ) :
    Waiting R → Waiting R × Scene σ
  | resting reply watch => (asking reply watch, s.on (World.rouse task))
  | asking (.finish result) _ => (ended result, s)
  | asking (.fire rung next) watch => (ringing rung next watch, s.on (World.raise rung))
  | asking (.pause next) watch => (looking next watch, s.on (World.wake [task]))
  | asking .hang watch => (looking .hang watch, s)
  | ringing rung next watch => (asking next watch, s.ring signal rung)
  | looking reply .fresh => (looking reply (.prepared s.rings), s)
  | looking reply (.prepared rings) =>
    if s.world.hasFired signal then
      (ended (.error .cancelled), s.on (World.note (.requestCancelled jql)))
    else (looking reply (.unfired rings), s)
  | looking reply (.unfired rings) =>
    if rings = s.rings then
      (resting reply (.unfired rings), s.on do World.unwatch task; World.watch signal task)
    else (looking reply .fresh, s)
  | ended result => (ended result, s)

/-- What the next step lets one see. -/
def sight (signal : Signal) (s : Scene σ) : Waiting R → Sight
  | resting _ _ => .begins
  | asking (.fire _ _) _ | ringing _ _ _ => .nothing
  | asking _ _ => .polled
  | looking _ (.prepared _) => .saw (s.world.hasFired signal)
  | looking _ _ | ended _ => .nothing

/-- Steps of a task, from the first to the last, with what they let one see, and between them what
others do.  A task that has ended has no steps. -/
inductive Run (others : Scene σ → Scene σ → Prop) (task : TaskId) (signal : Signal) (jql : String) :
    Waiting R → Scene σ → List Sight → Waiting R → Scene σ → Prop where
  | refl (wait : Waiting R) (s : Scene σ) : Run others task signal jql wait s [] wait s
  | own {wait wait' : Waiting R} {s s' : Scene σ} {sights : List Sight} :
    (∀ result, wait ≠ ended result) →
      Run others task signal jql (wait.step task signal jql s).1 (wait.step task signal jql s).2
        sights wait' s' →
      Run others task signal jql wait s (wait.sight signal s :: sights) wait' s'
  | elsewhere {wait wait' : Waiting R} {s s₁ s' : Scene σ} {sights : List Sight} :
    others s s₁ → Run others task signal jql wait s₁ sights wait' s' →
      Run others task signal jql wait s sights wait' s'

/-- One run goes on after another. -/
lemma Run.trans {others : Scene σ → Scene σ → Prop} {task : TaskId} {signal : Signal} {jql : String}
    {wait wait₁ wait' : Waiting R} {s s₁ s' : Scene σ} {sights later : List Sight}
    (h : Run others task signal jql wait s sights wait₁ s₁)
    (h' : Run others task signal jql wait₁ s₁ later wait' s') :
    Run others task signal jql wait s (sights ++ later) wait' s' := by
  induction h with
  | refl wait s => exact h'
  | own hrunning _ ih => exact .own hrunning (ih h')
  | elsewhere hmove _ ih => exact .elsewhere hmove (ih h')

/-- Others may do more. -/
lemma Run.mono {others others' : Scene σ → Scene σ → Prop} {task : TaskId} {signal : Signal}
    {jql : String} {wait wait' : Waiting R} {s s' : Scene σ} {sights : List Sight}
    (hothers : ∀ s s', others s s' → others' s s')
    (h : Run others task signal jql wait s sights wait' s') :
    Run others' task signal jql wait s sights wait' s' := by
  induction h with
  | refl wait s => exact .refl wait s
  | own hrunning _ ih => exact .own hrunning ih
  | elsewhere hmove _ ih => exact .elsewhere (hothers _ _ hmove) ih

/-! ### No wake-up is lost -/

/-- What holds of a task that waits, at every moment. -/
structure Sound (task : TaskId) (signal : Signal) (s : Scene σ) (wait : Waiting R) : Prop where
  /-- The flag is set exactly when somebody fires the signal or has fired it. -/
  flag : s.world.hasFired signal = true ↔ 0 < s.calling + s.rings + wait.ownCalls signal
  prepared : ∀ rings, wait.watch = .prepared rings → rings ≤ s.rings
  /-- When the flag was not set yet, nobody had been notified. -/
  unfired : ∀ rings, wait.watch = .unfired rings → rings = 0
  /-- A task that rests will be woken by the notification to come, or was woken by the last one. -/
  resting : ∀ reply watch, wait = resting reply watch → watch = .unfired 0 ∧
    (s.rings = 0 → (signal, task) ∈ s.world.watchers) ∧ (0 < s.rings → task ∈ s.world.woken)

variable {task : TaskId} {signal : Signal} {jql : String} {s s' : Scene σ} {wait wait' : Waiting R}
  {sights : List Sight}

/-- At the beginning of its first poll a task is sound, if the scene is one of its signal. -/
lemma sound_asking (reply : Activity (Page R))
    (hflag : s.world.hasFired signal = true ↔ 0 < s.calling + s.rings) :
    (asking reply .fresh).Sound task signal s where
  flag := hflag
  prepared := nofun
  unfired := nofun
  resting := nofun

/-- A step of the task keeps it sound. -/
lemma Sound.step (h : wait.Sound task signal s) :
    (wait.step task signal jql s).1.Sound task signal (wait.step task signal jql s).2 := by
  obtain ⟨hflag, hprepared, hunfired, hresting⟩ := h
  cases wait with
  | resting reply watch => exact ⟨hflag, hprepared, hunfired, nofun⟩
  | ended result => exact ⟨hflag, hprepared, hunfired, hresting⟩
  | asking reply watch =>
    cases reply with
    | finish result => exact ⟨hflag, nofun, nofun, nofun⟩
    | fire rung next =>
      refine ⟨?_, hprepared, hunfired, nofun⟩
      change ((World.raise rung).run s.world).2.hasFired signal = true ↔
        0 < s.calling + s.rings + if rung = signal then 1 else 0
      rw [World.hasFired_raise]
      by_cases hrung : rung = signal
      · simp [hrung]
      · have hother : (signal == rung) = false := beq_false_of_ne (Ne.symm hrung)
        rw [hother, Bool.false_or, if_neg hrung]
        exact hflag
    | pause next => exact ⟨hflag, hprepared, hunfired, nofun⟩
    | hang => exact ⟨hflag, hprepared, hunfired, nofun⟩
  | ringing rung next watch =>
    have hmore : s.rings ≤ (s.ring signal rung).rings := by
      simp only [Scene.ring]
      split_ifs <;> omega
    refine ⟨?_, fun rings hrings => (hprepared rings hrings).trans hmore, hunfired, nofun⟩
    change s.world.hasFired signal = true ↔
      0 < s.calling + (if rung = signal then s.rings + 1 else s.rings) + 0
    rw [hflag, ownCalls]
    split_ifs <;> omega
  | looking reply watch =>
    cases watch with
    | fresh =>
      refine ⟨hflag, fun rings hrings => ?_, nofun, nofun⟩
      exact (Watch.prepared.inj hrings).symm.le
    | prepared rings =>
      rw [Waiting.step]
      split_ifs with hfired
      · exact ⟨hflag, nofun, nofun, nofun⟩
      · refine ⟨hflag, nofun, fun rings' hrings => ?_, nofun⟩
        -- The handle was prepared before, so there was no notification by then either.
        have hnone := mt hflag.mpr hfired
        have hle := hprepared rings rfl
        have heq : rings = rings' := Watch.unfired.inj hrings
        omega
    | unfired rings =>
      have hzero : rings = 0 := hunfired rings rfl
      rw [Waiting.step]
      split_ifs with hsame
      · refine ⟨hflag, nofun, hunfired, ?_⟩
        rintro reply' watch' ⟨rfl, rfl⟩
        refine ⟨by rw [hzero], fun _ => ?_, fun hpos => ?_⟩
        · exact List.mem_append_right _ (List.mem_singleton_self _)
        · change 0 < s.rings at hpos
          omega
      · exact ⟨hflag, nofun, nofun, nofun⟩

/-- What others do keeps a task sound. -/
lemma Sound.elsewhere (h : wait.Sound task signal s) (hmove : Scene.Elsewhere task signal s s') :
    wait.Sound task signal s' := by
  obtain ⟨hflag, hprepared, hunfired, hresting⟩ := h
  cases hmove with
  | raise =>
    refine ⟨?_, hprepared, hunfired, hresting⟩
    change ((World.raise signal).run s.world).2.hasFired signal = true ↔
      0 < s.calling + 1 + s.rings + wait.ownCalls signal
    simp [World.hasFired_raise]
  | ring hcalling =>
    refine ⟨?_, ?_, hunfired, ?_⟩
    · change s.world.hasFired signal = true ↔
        0 < s.calling - 1 + (if signal = signal then s.rings + 1 else s.rings) +
          wait.ownCalls signal
      rw [hflag, if_pos rfl]
      omega
    · intro rings hrings
      have hle := hprepared rings hrings
      change rings ≤ if signal = signal then s.rings + 1 else s.rings
      rw [if_pos rfl]
      omega
    · intro reply watch hwait
      obtain ⟨hwatch, hwatched, hwoken⟩ := hresting reply watch hwait
      refine ⟨hwatch, fun hzero => ?_, fun _ => ?_⟩
      · simp [Scene.ring] at hzero
      · -- Either the task watches the signal and is woken now, or it was woken before.
        change task ∈ s.world.woken ++ (s.world.watchers.filter (·.1 = signal)).map Prod.snd
        rcases Nat.eq_zero_or_pos s.rings with hzero | hpos
        · refine List.mem_append_right _ (List.mem_map.mpr ⟨(signal, task), ?_, rfl⟩)
          simpa using hwatched hzero
        · exact List.mem_append_left _ (hwoken hpos)
  | aside haside =>
    refine ⟨?_, hprepared, hunfired, ?_⟩
    · rw [← hflag, ← haside.hasFired]
    · intro reply watch hwait
      obtain ⟨hwatch, hwatched, hwoken⟩ := hresting reply watch hwait
      exact ⟨hwatch, fun hzero => haside.watchers (hwatched hzero),
        fun hpos => haside.woken (hwoken hpos)⟩

/-- A task stays sound, whatever others do between its steps. -/
theorem Run.sound (hrun : Run (Scene.Elsewhere task signal) task signal jql wait s sights wait' s')
    (h : wait.Sound task signal s) : wait'.Sound task signal s' := by
  induction hrun with
  | refl wait s => exact h
  | own _ _ ih => exact ih h.step
  | elsewhere hmove _ ih => exact ih (h.elsewhere hmove)

/-- A task that rests while its signal has fired has been woken, unless a call is still to notify
it. -/
lemma Sound.woken {reply : Activity (Page R)} {watch : Watch}
    (h : (Waiting.resting reply watch).Sound task signal s)
    (hfired : s.world.hasFired signal = true)
    (hcalling : s.calling = 0) : task ∈ s.world.woken := by
  have hpos := h.flag.mp hfired
  rw [hcalling] at hpos
  change 0 < 0 + s.rings + 0 at hpos
  exact (h.resting reply watch rfl).2.2 (by omega)

/-! ### What a task comes to -/

/-- How a task stands to the reply that it was given at first, after what was seen.

The request is polled once in each poll.  Up to the end no poll has seen the signal fired.  The end
is that the request is ready, or that the request has to wait and the signal is seen fired. -/
def Follows (first : Activity (Page R)) (seen : List Sight) : Waiting R → Prop
  | resting reply _ | looking reply _ =>
    first.advanced (seen.count .polled) = .pending reply ∧
      seen.count .polled = seen.count .begins + 1 ∧ .saw true ∉ seen
  | asking reply _ | ringing _ reply _ =>
    (∃ rest, first.advanced (seen.count .polled) = .pending rest ∧
      reply.advance = rest.advance) ∧
      seen.count .polled = seen.count .begins ∧ .saw true ∉ seen
  | ended result =>
    seen.count .polled = seen.count .begins + 1 ∧
      ((∃ rest, first.advanced (seen.count .begins) = .pending rest ∧
          rest.advance = .ready result ∧ .saw true ∉ seen) ∨
        (∃ rest, first.advanced (seen.count .polled) = .pending rest) ∧
          result = .error .cancelled ∧ ∃ before, seen = before ++ [.saw true] ∧ .saw true ∉ before)

/-- A step that shows nothing changes nothing. -/
lemma Follows.append_nothing {first : Activity (Page R)} {seen : List Sight}
    (h : wait.Follows first seen) (hrunning : ∀ result, wait ≠ ended result) :
    wait.Follows first (seen ++ [.nothing]) := by
  cases wait with
  | ended result => exact absurd rfl (hrunning result)
  | resting reply watch | looking reply watch =>
    obtain ⟨hreply, hcount, hunseen⟩ := h
    exact ⟨by simpa using hreply, by simpa using hcount, by simpa using hunseen⟩
  | asking reply watch | ringing rung reply watch =>
    obtain ⟨⟨rest, hrest, hreply⟩, hcount, hunseen⟩ := h
    exact ⟨⟨rest, by simpa using hrest, hreply⟩, by simpa using hcount, by simpa using hunseen⟩

/-- A step of the task goes on with its reply. -/
lemma Follows.step {first : Activity (Page R)} {seen : List Sight} (h : wait.Follows first seen)
    (hrunning : ∀ result, wait ≠ ended result) :
    (wait.step task signal jql s).1.Follows first (seen ++ [wait.sight signal s]) := by
  cases wait with
  | ended result => exact absurd rfl (hrunning result)
  | resting reply watch =>
    obtain ⟨hreply, hcount, hunseen⟩ := h
    refine ⟨⟨reply, ?_, rfl⟩, ?_, ?_⟩
    · simpa [sight] using hreply
    · simpa [sight] using hcount
    · simpa [sight] using hunseen
  | ringing rung reply watch =>
    have hasks : (asking reply watch).Follows first seen := h
    exact hasks.append_nothing nofun
  | asking reply watch =>
    obtain ⟨⟨rest, hrest, hreply⟩, hcount, hunseen⟩ := h
    have hnext := Activity.advanced_succ_of_pending hrest
    rw [← hreply] at hnext
    cases reply with
    | fire rung next =>
      have hrings : (ringing rung next watch).Follows first seen :=
        ⟨⟨rest, hrest, hreply⟩, hcount, hunseen⟩
      exact hrings.append_nothing nofun
    | finish result =>
      refine ⟨?_, .inl ⟨rest, ?_, hreply.symm, ?_⟩⟩
      · simpa [sight] using hcount
      · simpa [sight, hcount] using hrest
      · simpa [sight] using hunseen
    | pause next | hang =>
      refine ⟨?_, ?_, ?_⟩
      · simpa [sight, Activity.advance] using hnext
      · simpa [sight] using hcount
      · simpa [sight] using hunseen
  | looking reply watch =>
    have hstays : (looking reply .fresh).Follows first (seen ++ [.nothing]) :=
      h.append_nothing hrunning
    cases watch with
    | fresh => exact hstays
    | unfired rings =>
      rw [Waiting.step]
      split_ifs
      · exact hstays
      · exact hstays
    | prepared rings =>
      obtain ⟨hreply, hcount, hunseen⟩ := h
      rw [Waiting.step, sight]
      cases hfired : s.world.hasFired signal with
      | true =>
        refine ⟨?_, .inr ⟨⟨reply, ?_⟩, rfl, seen, rfl, hunseen⟩⟩
        · simpa using hcount
        · simpa using hreply
      | false =>
        refine ⟨?_, ?_, ?_⟩
        · simpa using hreply
        · simpa using hcount
        · simpa using hunseen

/-- What every step of the task and every move of others keeps, if one knows what was seen before,
holds at the end of a run. -/
theorem Run.preserves {others : Scene σ → Scene σ → Prop}
    {P : List Sight → Waiting R → Scene σ → Prop}
    (hown : ∀ {seen wait s}, P seen wait s → (∀ result, wait ≠ ended result) →
      P (seen ++ [wait.sight signal s]) (wait.step task signal jql s).1
        (wait.step task signal jql s).2)
    (hothers : ∀ {seen wait s s'}, P seen wait s → others s s' → P seen wait s')
    (hrun : Run others task signal jql wait s sights wait' s') (seen : List Sight)
    (hP : P seen wait s) : P (seen ++ sights) wait' s' := by
  induction hrun generalizing seen with
  | refl wait s => simpa using hP
  | own hrunning _ ih =>
    rw [List.append_cons]
    exact ih _ (hown hP hrunning)
  | elsewhere hmove _ ih => exact ih _ (hothers hP hmove)

/-- A task keeps to its reply, whatever others do between its steps. -/
lemma Run.follows {others : Scene σ → Scene σ → Prop} {first : Activity (Page R)}
    (hrun : Run others task signal jql (asking first .fresh) s sights wait' s') :
    wait'.Follows first sights := by
  have hstart : (asking first .fresh).Follows first [] := ⟨⟨first, rfl, rfl⟩, rfl, nofun⟩
  exact hrun.preserves (P := fun seen wait _ => wait.Follows first seen) Follows.step
    (fun h _ => h) [] hstart

/-! ### Fired signals -/

/-- No step of the task makes a signal unfired. -/
lemma fired_subset_step (wait : Waiting R) :
    s.world.fired ⊆ (wait.step task signal jql s).2.world.fired := by
  cases wait with
  | resting reply watch => exact List.Subset.refl _
  | ended result => exact List.Subset.refl _
  | ringing rung reply watch => exact List.Subset.refl _
  | asking reply watch =>
    cases reply with
    | fire rung next => exact List.subset_cons_self _ _
    | _ => exact List.Subset.refl _
  | looking reply watch =>
    cases watch with
    | fresh => exact List.Subset.refl _
    | prepared rings | unfired rings =>
      rw [step]
      split_ifs <;> exact List.Subset.refl _

/-- A fired signal stays fired. -/
lemma Run.hasFired (hrun : Run (Scene.Elsewhere task signal) task signal jql wait s sights wait' s')
    (hfired : s.world.hasFired signal = true) : s'.world.hasFired signal = true := by
  induction hrun with
  | refl wait s => exact hfired
  | @own wait _ s _ _ hrunning _ ih =>
    have hmem : signal ∈ s.world.fired := List.contains_iff_mem.mp hfired
    exact ih (List.contains_iff_mem.mpr (wait.fired_subset_step hmem))
  | elsewhere hmove _ ih => exact ih (hmove.hasFired hfired)

/-! ### The last poll -/

/-- Once the waiters were notified, or are to be notified by the task itself, they stay so. -/
lemma notified_step (wait : Waiting R) (h : 0 < s.rings + wait.ownCalls signal) :
    0 < (wait.step task signal jql s).2.rings +
      (wait.step task signal jql s).1.ownCalls signal := by
  cases wait with
  | resting reply watch => exact h
  | ended result => exact h
  | ringing rung reply watch =>
    change 0 < (if rung = signal then s.rings + 1 else s.rings) + 0
    rw [ownCalls] at h
    split_ifs at h ⊢ <;> omega
  | asking reply watch =>
    cases reply with
    | fire rung next => exact Nat.lt_of_lt_of_le h (Nat.le_add_right s.rings _)
    | _ => exact h
  | looking reply watch =>
    cases watch with
    | fresh => exact h
    | prepared rings | unfired rings =>
      rw [step]
      split_ifs <;> exact h

/-- After the waiters were notified, a task does not come to rest any more. -/
lemma Sound.step_ne_resting (h : wait.Sound task signal s)
    (hnotified : 0 < s.rings + wait.ownCalls signal) (reply : Activity (Page R)) (watch : Watch) :
    (wait.step task signal jql s).1 ≠ Waiting.resting reply watch := by
  cases wait with
  | resting _ _ | ended _ | ringing _ _ _ => nofun
  | asking reply watch => cases reply <;> nofun
  | looking reply watch =>
    cases watch with
    | fresh => nofun
    | prepared rings =>
      rw [Waiting.step]
      split_ifs <;> nofun
    | unfired rings =>
      have hzero : rings = 0 := h.unfired rings rfl
      have hne : rings ≠ s.rings := by
        change 0 < s.rings + 0 at hnotified
        omega
      rw [Waiting.step, if_neg hne]
      nofun

/-- When the signal has fired and all others have notified the waiters, a task rests only as long as
it has no step. -/
lemma Run.eq_nil_of_resting {reply : Activity (Page R)} {watch : Watch}
    (hrun : Run (Scene.Elsewhere task signal) task signal jql wait s sights
      (resting reply watch) s')
    (h : wait.Sound task signal s) (hnotified : 0 < s.rings + wait.ownCalls signal) :
    sights = [] := by
  generalize hend : resting reply watch = last at hrun
  induction hrun with
  | refl wait s => rfl
  | elsewhere hmove _ ih =>
    have hle := hmove.rings_le
    exact ih (h.elsewhere hmove) (by omega) hend
  | own hrunning hrest _ =>
    -- From the next step on the task does not rest, so it does not rest at the end.
    have hstep := hrest.preserves
      (P := fun _ wait s => wait.Sound task signal s ∧ 0 < s.rings + wait.ownCalls signal ∧
        ∀ reply watch, wait ≠ resting reply watch)
      (fun ⟨hsound, hpos, _⟩ _ =>
        ⟨hsound.step, notified_step _ hpos, hsound.step_ne_resting hpos⟩)
      (fun ⟨hsound, hpos, hne⟩ hmove =>
        ⟨hsound.elsewhere hmove, Nat.lt_of_lt_of_le hpos (Nat.add_le_add_right hmove.rings_le _),
          hne⟩)
      [] ⟨h.step, notified_step _ hnotified, h.step_ne_resting hnotified⟩
    exact absurd hend.symm (hstep.2.2 reply watch)

/-! ### The length of a poll -/

/-- An upper bound for the steps in which a task looks at its signal. -/
def lookEffort (fired : Bool) : Watch → Nat
  | .fresh => if fired then 2 else 5
  | .prepared _ => if fired then 1 else 4
  | .unfired _ => 3

/-- An upper bound for the steps that are left in a poll. -/
def effort (signal : Signal) (s : Scene σ) : Waiting R → Nat
  | resting _ _ | ended _ => 0
  | asking reply _ => 2 * reply.signals + 6
  | ringing _ reply _ => 2 * reply.signals + 7
  | looking _ watch => lookEffort (s.world.hasFired signal) watch

/-- A look at the signal takes five steps at most. -/
lemma lookEffort_le (fired : Bool) (watch : Watch) : lookEffort fired watch ≤ 5 := by
  cases watch <;> cases fired <;> simp [lookEffort]

/-- Within a poll every step of the task brings it nearer to the end of the poll. -/
lemma Sound.effort_step (h : wait.Sound task signal s) (hrunning : ∀ result, wait ≠ ended result)
    (hpolled : ∀ reply watch, wait ≠ Waiting.resting reply watch) :
    (wait.step task signal jql s).1.effort signal (wait.step task signal jql s).2 <
      wait.effort signal s := by
  cases wait with
  | resting reply watch => exact absurd rfl (hpolled reply watch)
  | ended result => exact absurd rfl (hrunning result)
  | ringing rung reply watch => exact Nat.lt_succ_self _
  | asking reply watch =>
    cases reply with
    | finish result => exact Nat.succ_pos _
    | fire rung next =>
      change 2 * next.signals + 7 < 2 * (next.signals + 1) + 6
      omega
    | pause next | hang =>
      have hle := lookEffort_le (s.world.hasFired signal) watch
      change lookEffort (s.world.hasFired signal) watch < 2 * 0 + 6
      omega
  | looking reply watch =>
    cases watch with
    | fresh =>
      change lookEffort (s.world.hasFired signal) (.prepared s.rings) <
        lookEffort (s.world.hasFired signal) .fresh
      cases s.world.hasFired signal <;> simp [lookEffort]
    | prepared rings =>
      rw [Waiting.step]
      cases hfired : s.world.hasFired signal with
      | true => simp [effort, lookEffort, hfired]
      | false => simp [effort, lookEffort, hfired]
    | unfired rings =>
      have hzero : rings = 0 := h.unfired rings rfl
      rw [Waiting.step]
      split_ifs with hsame
      · simp [effort, lookEffort]
      · -- There was a notification, so the flag is set.
        have hfired : s.world.hasFired signal = true := h.flag.mpr (by omega)
        simp [effort, lookEffort, hfired]

/-- Others do not lengthen a poll. -/
lemma effort_elsewhere (hmove : Scene.Elsewhere task signal s s') (wait : Waiting R) :
    wait.effort signal s' ≤ wait.effort signal s := by
  cases wait with
  | looking reply watch =>
    change lookEffort (s'.world.hasFired signal) watch ≤ lookEffort (s.world.hasFired signal) watch
    cases hfired : s.world.hasFired signal with
    | true => rw [hmove.hasFired hfired]
    | false => cases s'.world.hasFired signal <;> cases watch <;> simp [lookEffort]
  | _ => exact le_rfl

/-- Within a poll a task has no more steps than its effort, whatever others do between them. -/
lemma Run.length_add_effort_le
    (hrun : Run (Scene.Elsewhere task signal) task signal jql wait s sights wait' s')
    (h : wait.Sound task signal s) (hsame : .begins ∉ sights) :
    sights.length + wait'.effort signal s' ≤ wait.effort signal s := by
  induction hrun with
  | refl wait s => simp
  | elsewhere hmove _ ih =>
    exact (ih (h.elsewhere hmove) hsame).trans (effort_elsewhere hmove _)
  | @own wait _ s _ _ hrunning _ ih =>
    rw [List.mem_cons, not_or] at hsame
    have hpolled : ∀ reply watch, wait ≠ resting reply watch := by
      rintro reply watch rfl
      exact hsame.1 rfl
    have hless : (wait.step task signal jql s).1.effort signal
        (wait.step task signal jql s).2 < wait.effort signal s := h.effort_step hrunning hpolled
    have hrest := ih h.step hsame.2
    rw [List.length_cons]
    omega

end Waiting

end IssueQuery

import IssueQuery.Proofs.Execution.Keeping

/-!
# A call is announced

Right before a fetch calls the fetcher it announces the call: it writes an entry to the log that has
the text, the limit and the start of the request.  No other entry of a fetch announces anything, and
so the announcement of a call cannot be mistaken.

`World.Unrequested` says that from one world to the next there is neither a call nor an
announcement.  It is kept by everything that a fetch does short of its request
(`keeping_unrequested` and `Pipeline.unannounced_toDirective`).  `Fetch.polled` is the result: a
poll of a fetch requests nothing, or it ends as cancelled, or it announces a call, makes it and
awaits the page.
-/

namespace IssueQuery

variable {σ R α β : Type}

/-- The entry of the log that announces a call. -/
def Provider.announcement (provider : Provider R) (call : FetchCall) : LogEvent :=
  .request provider.settings.tracesRequests call.jql call.maxResults call.startAt

/-! ### Compilations -/

/-- A compilation writes no announcements to the log. -/
def Compilation.Unannounced (x : Compilation σ α) : Prop :=
  ∀ c, ∃ notes, (outcome x c).2.log = c.log ++ notes ∧ ∀ note ∈ notes, note.isRequest = false

namespace Compilation.Unannounced

variable {x : Compilation σ α} {f : α → Compilation σ β}

/-- What leaves the log as it is announces nothing. -/
lemma of_log_eq (h : ∀ c, (outcome x c).2.log = c.log) : x.Unannounced := by
  intro c
  exact ⟨[], by rw [h, List.append_nil], List.forall_mem_nil _⟩

/-- To return a value announces nothing. -/
lemma pure (a : α) : Unannounced (pure a : Compilation σ α) := of_log_eq fun _ => rfl

/-- To fail announces nothing. -/
lemma throw (e : Error) : Unannounced (throw e : Compilation σ α) := of_log_eq fun _ => rfl

/-- A result without effects announces nothing. -/
lemma liftExcept (r : Except Error α) : Unannounced (liftExcept r : Compilation σ α) := by
  refine of_log_eq fun c => ?_
  rw [outcome_liftExcept]

/-- An evaluation does not write to the log, so it announces nothing. -/
lemma ofEvaluation (e : Evaluation σ α) : (Compilation.ofEvaluation e).Unannounced :=
  of_log_eq fun _ => rfl

/-- An entry that announces nothing may be written. -/
lemma note {event : LogEvent} (hevent : event.isRequest = false) :
    (Compilation.note event : Compilation σ Unit).Unannounced := by
  intro c
  exact ⟨[event], rfl, by simpa using hevent⟩

/-- Two parts that announce nothing announce nothing together. -/
lemma bind (hx : x.Unannounced) (hf : ∀ a, (f a).Unannounced) : (x >>= f).Unannounced := by
  intro c
  obtain ⟨notes, hlog, hnotes⟩ := hx c
  rw [outcome_bind]
  rcases houtcome : outcome x c with ⟨e | a, c₁⟩
  · rw [houtcome] at hlog
    exact ⟨notes, hlog, hnotes⟩
  · obtain ⟨later, hlater, hlaterNotes⟩ := hf a c₁
    rw [houtcome] at hlog
    refine ⟨notes ++ later, ?_, ?_⟩
    · rw [hlater, hlog, List.append_assoc]
    · intro note hnote
      exact (List.mem_append.mp hnote).elim (hnotes note) (hlaterNotes note)

/-- A walk over a list announces nothing if no step does. -/
lemma foldlM {g : β → α → Compilation σ β} (hg : ∀ b a, (g b a).Unannounced) (as : List α) (b : β) :
    (as.foldlM g b).Unannounced := by
  induction as generalizing b with
  | nil => exact pure b
  | cons a as ih =>
    rw [List.foldlM_cons]
    exact (hg b a).bind ih

/-- To go through a list announces nothing if no element does. -/
lemma mapM (hf : ∀ a, (f a).Unannounced) (as : List α) : (as.mapM f).Unannounced := by
  induction as with
  | nil => exact pure []
  | cons a as ih =>
    rw [List.mapM_cons]
    exact (hf a).bind fun b => ih.bind fun bs => pure (b :: bs)

end Compilation.Unannounced

open Compilation.Unannounced in
/-- The visit of a stage announces nothing; all that it may log is that a count is shadowed. -/
lemma Draft.unannounced_visit (d : Draft σ) (stage : Stage σ R) :
    Compilation.Unannounced (d.visit stage) := by
  cases stage with
  | filter condition => exact pure _
  | order key direction secondary =>
    have hfield : Compilation.Unannounced
        (key.toOrderField (Stage.order key direction secondary : Stage σ R).name) := by
      rw [Expr.toOrderField]
      split
      · exact pure _
      · refine (ofEvaluation _).bind fun folded => ?_
        split
        · exact pure _
        · exact throw _
      · exact throw _
    exact hfield.bind fun field => pure _
  | take count =>
    rw [visit]
    split
    · exact pure _
    · exact (note rfl).bind fun _ => pure _
  | skip count =>
    rw [visit]
    split
    · exact pure _
    · exact (note rfl).bind fun _ => pure _
  | localFilter predicate =>
    rw [visit]
    split
    · exact pure _
    · exact throw _

open Compilation.Unannounced in
/-- What is noted of a compilation is at most that some stages do not count. -/
theorem Pipeline.unannounced_toDirective (registry : FieldRegistry) (p : Pipeline σ R) :
    (p.toDirective registry).Unannounced := by
  have hcondition (condition : Expr σ) : (condition.toPredicate registry).Unannounced :=
    (ofEvaluation _).bind fun folded => liftExcept _
  have hcompile : (p.compile registry).Unannounced :=
    (foldlM Draft.unannounced_visit p.newestFirst {}).bind fun draft =>
      (mapM hcondition draft.conditions).bind fun predicates => pure _
  exact hcompile.bind fun compiled => pure _

/-! ### Worlds -/

/-- Nothing is requested from one world to the next: no call is made, and no new entry of the log
announces one. -/
structure World.Unrequested (w w' : World σ) : Prop where
  calls : w'.calls = w.calls
  log : ∃ notes, w'.log = w.log ++ notes ∧ ∀ note ∈ notes, note.isRequest = false

namespace World

variable {w w₁ w' : World σ}

/-- Where the calls and the log stay as they are, nothing is requested. -/
lemma unrequested_of_eq (hcalls : w'.calls = w.calls) (hlog : w'.log = w.log) :
    w.Unrequested w' :=
  ⟨hcalls, [], by rw [hlog, List.append_nil], List.forall_mem_nil _⟩

/-- If nothing is requested in two spans of time, nothing is requested in both together. -/
lemma Unrequested.trans (h : w.Unrequested w₁) (h' : w₁.Unrequested w') : w.Unrequested w' := by
  obtain ⟨notes, hlog, hnotes⟩ := h.log
  obtain ⟨later, hlater, hlaterNotes⟩ := h'.log
  refine ⟨h'.calls.trans h.calls, notes ++ later, ?_, ?_⟩
  · rw [hlater, hlog, List.append_assoc]
  · intro note hnote
    exact (List.mem_append.mp hnote).elim (hnotes note) (hlaterNotes note)

/-- To write an entry that announces nothing requests nothing. -/
lemma unrequested_note {event : LogEvent} (hevent : event.isRequest = false) (w : World σ) :
    w.Unrequested ((note event).run w).2 :=
  ⟨rfl, [event], rfl, by simpa using hevent⟩

/-- A compilation requests nothing. -/
lemma unrequested_toDirective (registry : FieldRegistry) (p : Pipeline σ R) (w : World σ) :
    w.Unrequested { w with toContext := (outcome (p.toDirective registry) w.toContext).2 } :=
  ⟨rfl, p.unannounced_toDirective registry w.toContext⟩

end World

/-- Nothing short of its request requests anything for a task. -/
lemma keeping_unrequested (id : TaskId) :
    Keeping id (World.Unrequested : World σ → World σ → Prop) where
  refl _ := World.unrequested_of_eq rfl rfl
  trans := World.Unrequested.trans
  fire _ _ := World.unrequested_of_eq rfl rfl
  wake _ _ := World.unrequested_of_eq rfl rfl
  look signal w := by
    rw [World.pollCancellation, run_get_bind]
    split
    · exact World.unrequested_of_eq rfl rfl
    · cases signal <;> exact World.unrequested_of_eq rfl rfl
  cache _ _ := World.unrequested_of_eq rfl rfl
  lookups _ _ := World.unrequested_of_eq rfl rfl
  note _ := World.unrequested_note

/-! ### Polls of a fetch -/

namespace Fetch

variable {provider : Provider R} {id : TaskId} {p : Pipeline σ R} {signal : Option Signal}
  {d : Directive} {o : Outcome R} {w w₁ w' : World σ}

/-- The world right before a call: it was announced last, and until then nothing was requested. -/
structure Announces (provider : Provider R) (signal : Option Signal) (call : FetchCall)
    (w w₁ : World σ) : Prop where
  calls : w₁.calls = w.calls
  log : ∃ notes, w₁.log = w.log ++ notes ++ [provider.announcement call] ∧
    ∀ note ∈ notes, note.isRequest = false
  unfired : w₁.isCancelled signal = false

/-- What a poll of a fetch has done when it has come to some outcome. -/
inductive Polled (provider : Provider R) (id : TaskId) (signal : Option Signal) (w : World σ) :
    Outcome R → World σ → Prop where
  | unrequested {o : Outcome R} {w' : World σ} :
    w.Unrequested w' → Polled provider id signal w o w'
  /-- The signal has fired; the call may have been announced already. -/
  | cancelled {w' : World σ} :
    w'.calls = w.calls → Polled provider id signal w (.ready (.error .cancelled)) w'
  /-- The call is announced and made, and the page is awaited. -/
  | called {call : FetchCall} {w₁ w' : World σ} {o : Outcome R} :
    Announces provider signal call w w₁ →
      (awaitPage id signal call.jql (provider.fetcher (w₁.calls ++ [call]))).run
        { w₁ with calls := w₁.calls ++ [call] } = (o, w') →
      Polled provider id signal w o w'

/-- What is not requested can come before. -/
lemma Polled.of_unrequested (h : w.Unrequested w₁) (hpolled : Polled provider id signal w₁ o w') :
    Polled provider id signal w o w' := by
  cases hpolled with
  | unrequested hrest => exact .unrequested (h.trans hrest)
  | cancelled hcalls => exact .cancelled (hcalls.trans h.calls)
  | @called call w₂ _ _ hannounces hawait =>
    obtain ⟨notes, hlog, hnotes⟩ := h.log
    obtain ⟨later, hlater, hlaterNotes⟩ := hannounces.log
    refine .called ⟨hannounces.calls.trans h.calls, ⟨notes ++ later, ?_, ?_⟩,
      hannounces.unfired⟩ hawait
    · rw [hlater, hlog, List.append_assoc w.log]
    · intro note hnote
      exact (List.mem_append.mp hnote).elim (hnotes note) (hlaterNotes note)

/-- Waiting for a page requests nothing. -/
lemma unrequested_of_awaitPage {jql : String} {reply : Activity (Page R)}
    (h : (awaitPage id signal jql reply).run w = (o, w')) : w.Unrequested w' := by
  have hkept := (keeping_unrequested id).awaitPage signal jql reply w
  rwa [h] at hkept

/-- The request itself: it is cancelled after its announcement, or the announced call is made. -/
lemma polled_request (h : (request provider id signal d).run w = (o, w')) :
    Polled provider id signal w o w' := by
  let call : FetchCall := ⟨d.jql, d.maxResults, d.firstRecord, false⟩
  obtain ⟨u, w₁, hnote⟩ : ∃ u w₁, (World.note (provider.announcement call)).run w = (u, w₁) :=
    ⟨_, _, rfl⟩
  have hlog : w₁.log = w.log ++ [] ++ [provider.announcement call] := by
    rw [List.append_nil]
    exact (congrArg (fun r => r.2.log) hnote).symm
  have hcalls : w₁.calls = w.calls := (congrArg (fun r => r.2.calls) hnote).symm
  change (World.note (provider.announcement call) >>= _).run w = (o, w') at h
  rw [run_bind_of_eq hnote, run_get_bind] at h
  cases hcancelled : w₁.isCancelled signal with
  | true =>
    rw [hcancelled] at h
    obtain ⟨rfl, rfl⟩ := Prod.mk.inj h
    exact .cancelled hcalls
  | false =>
    rw [hcancelled] at h
    -- What is left after the check is the call, which is put down as made in time, and the wait.
    change (awaitPage id signal d.jql (provider.fetcher (w₁.calls ++ [⟨d.jql, d.maxResults,
      d.firstRecord, w₁.isCancelled signal⟩]))).run { w₁ with calls := w₁.calls ++ [⟨d.jql,
        d.maxResults, d.firstRecord, w₁.isCancelled signal⟩] } = (o, w') at h
    rw [hcancelled] at h
    have hannounces : Announces provider signal call w w₁ :=
      ⟨hcalls, ⟨[], hlog, List.forall_mem_nil _⟩, hcancelled⟩
    exact .called hannounces h

/-- After its lookups a fetch waits, fails, is cancelled, or makes its request. -/
lemma polled_afterLookups {progress : Progress (Except Error Unit) Lookups}
    (h : (afterLookups provider id signal d progress).run w = (o, w')) :
    Polled provider id signal w o w' := by
  rcases progress with (e | u) | lookups
  · obtain ⟨rfl, rfl⟩ := Prod.mk.inj h
    exact .unrequested ((keeping_unrequested id).refl w)
  · exact polled_request h
  · have hkept := (keeping_unrequested id).awaitLookups provider signal d lookups w
    rw [h] at hkept
    exact .unrequested hkept

/-- The lookups of a fetch, and what comes after them. -/
lemma polled_lookups {name : String} {lookup : Lookup} {rest : List String}
    (h : (do
      afterLookups provider id signal d
        (← pollLookups provider.source id name lookup rest)).run w = (o, w')) :
    Polled provider id signal w o w' := by
  obtain ⟨progress, w₁, hlookups⟩ : ∃ progress w₁,
      (pollLookups provider.source id name lookup rest).run w = (progress, w₁) := ⟨_, _, rfl⟩
  have hkept := (keeping_unrequested id).pollLookups provider.source name lookup rest w
  rw [hlookups] at hkept
  rw [run_bind_of_eq hlookups] at h
  exact .of_unrequested hkept (polled_afterLookups h)

/-- Every poll of a fetch requests nothing, ends as cancelled, or announces a call, makes it and
awaits the page. -/
theorem polled {state : Fetch R} (h : (state.poll provider id p signal).run w = (o, w')) :
    Polled provider id signal w o w' := by
  cases state with
  | requesting jql reply => exact .unrequested (unrequested_of_awaitPage h)
  | lookingUp d name lookup rest => exact polled_lookups h
  | fresh =>
    obtain ⟨d, w₁, hcompile⟩ : ∃ d w₁,
        (World.onContext (p.toDirective provider.fields)).run w = (d, w₁) := ⟨_, _, rfl⟩
    have hunrequested : w.Unrequested w₁ := by
      rw [← (Prod.mk.inj hcompile).2]
      exact World.unrequested_toDirective provider.fields p w
    refine .of_unrequested hunrequested ?_
    rw [poll, start, run_bind_of_eq hcompile] at h
    cases d with
    | error e =>
      obtain ⟨rfl, rfl⟩ := Prod.mk.inj h
      exact .unrequested ((keeping_unrequested id).refl w₁)
    | ok d =>
      simp only [run_get_bind] at h
      split at h
      · obtain ⟨rfl, rfl⟩ := Prod.mk.inj h
        exact .cancelled rfl
      · split at h
        · exact polled_lookups h
        · exact polled_request h

end Fetch

end IssueQuery

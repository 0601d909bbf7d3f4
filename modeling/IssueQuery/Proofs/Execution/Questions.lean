import IssueQuery.Proofs.Execution.Cells

/-!
# Questions to the server

What happens at a cell can be told from the events.  `Status.Next` has the rules: as long as the
field is unknown, one task may ask for it, or it may be inserted from outside; the task that asked
may store its answer, fail or give up; and a lookup finds the field that is known.  A `Status.Run`
is a list of events that goes by the rules from the first to the last.

`Place.Move.runs` says that the events of every move go by the rules, and `System.History.runs` that
those of a history do.  What follows from the rules alone, such as that a field that is known is
never asked for, is said of runs; `System.History.asked_in_turn` puts it together for systems.
-/

namespace IssueQuery

variable {σ R α : Type}

/-! ### Rules -/

/-- What can be told of a field from the events. -/
inductive Status where
  | unknown
  | asked (id : TaskId)
  | known (field : CustomField)

/-- Whether the server is asked for a name. -/
def Event.isQuestion (name : String) (event : Event) : Bool := event.question? == some name

/-- Whether the event is the end of a lookup without an answer to the question that was asked. -/
def Event.isLoss (name : String) : Event → Bool
  | lookedUp looked (.error _) => looked = name
  | abandoned looked => looked = name
  | _ => false

/-- Whether the event puts a field into the cell of a name. -/
def Event.isStorage (name : String) : Event → Bool
  | stored filled _ => filled = name
  | _ => false

/-- An event that is not about a name is none of these. -/
lemma Event.of_name?_ne {name : String} {event : Event} (h : event.name? ≠ some name) :
    event.isQuestion name = false ∧ event.isStorage name = false ∧ event.isLoss name = false := by
  cases event with
  | asked asked => simpa [isQuestion, isStorage, isLoss, question?, name?] using h
  | stored filled field => simpa [isQuestion, isStorage, isLoss, question?, name?] using h
  | lookedUp looked result =>
    cases result with
    | error e => simpa [isQuestion, isStorage, isLoss, question?, name?] using h
    | ok field => simp [isQuestion, isStorage, isLoss, question?]
  | abandoned looked => simpa [isQuestion, isStorage, isLoss, question?, name?] using h
  | requested call => simp [isQuestion, isStorage, isLoss, question?]

/-- Whether a question of a task comes to an end: it is answered or lost. -/
def System.endsQuestion (name : String) (entry : System.Entry) : Bool :=
  entry.1.isSome && entry.2.isStorage name || entry.2.isLoss name

namespace Status

/-- The rules for one event. -/
inductive Next (name : String) : Status → System.Entry → Status → Prop where
  | ask (id : TaskId) : Next name .unknown (some id, .asked name) (.asked id)
  | answer (id : TaskId) (field : CustomField) :
    Next name (.asked id) (some id, .stored name field) (.known field)
  | insert (field : CustomField) : Next name .unknown (none, .stored name field) (.known field)
  | find (id : TaskId) (field : CustomField) :
    Next name (.known field) (some id, .lookedUp name (.ok field)) (.known field)
  | fail (id : TaskId) (e : Error) :
    Next name (.asked id) (some id, .lookedUp name (.error e)) .unknown
  | abandon (id : TaskId) : Next name (.asked id) (some id, .abandoned name) .unknown
  /-- The event is not about the name. -/
  | other (status : Status) {entry : System.Entry} :
    entry.2.name? ≠ some name → Next name status entry status

/-- The rules for a list of events. -/
inductive Run (name : String) : Status → List System.Entry → Status → Prop where
  | nil (status : Status) : Run name status [] status
  | cons {a b c : Status} {entry : System.Entry} {entries : List System.Entry} :
    Next name a entry b → Run name b entries c → Run name a (entry :: entries) c

/-- A cached field is known, and others are unknown. -/
def ofCached : Option CustomField → Status
  | some field => known field
  | none => unknown

/-- The number of questions that are open. -/
def openQuestions : Status → Nat
  | asked _ => 1
  | unknown | known _ => 0

/-- The number of fields that are known. -/
def fields : Status → Nat
  | known _ => 1
  | unknown | asked _ => 0

/-- Either a question is open or a field is known, but not both. -/
lemma openQuestions_add_fields_le_one (status : Status) :
    status.openQuestions + status.fields ≤ 1 := by
  cases status <;> simp [openQuestions, fields]

/-- The status agrees with what is cached and with the places of the tasks. -/
def Fits (name : String) (cached : Option CustomField) (places : TaskId → Place) : Status → Prop
  | unknown => cached = none ∧ ∀ id, places id ≠ .asking name
  | asked id => cached = none ∧ places id = .asking name
  | known field => cached = some field

namespace Run

variable {name : String} {a b c : Status} {entries later : List System.Entry} {field : CustomField}

/-- A single event that goes by the rules is a run. -/
lemma single {entry : System.Entry} (h : Next name a entry b) : Run name a [entry] b :=
  .cons h (.nil b)

/-- One run goes on after another. -/
lemma append (h : Run name a entries b) (h' : Run name b later c) :
    Run name a (entries ++ later) c := by
  induction h with
  | nil status => exact h'
  | cons hfirst _ ih => exact .cons hfirst (ih h')

/-- A run is at some status at every moment. -/
lemma exists_of_append (h : Run name a (entries ++ later) c) :
    ∃ b, Run name a entries b ∧ Run name b later c := by
  induction entries generalizing a with
  | nil => exact ⟨a, .nil a, h⟩
  | cons entry entries ih =>
    cases h with
    | cons hfirst hrest =>
      obtain ⟨b, hbefore, hafter⟩ := ih hrest
      exact ⟨b, .cons hfirst hbefore, hafter⟩

/-- Events that are not about the name tell nothing. -/
lemma of_other (status : Status) (h : ∀ entry ∈ entries, entry.2.name? ≠ some name) :
    Run name status entries status := by
  induction entries with
  | nil => exact .nil status
  | cons entry entries ih =>
    rw [List.forall_mem_cons] at h
    exact .cons (.other status h.1) (ih h.2)

/-- What is known stays known, and all that happens then is that it is found. -/
lemma of_known (h : Run name (.known field) entries b) :
    b = .known field ∧ ∀ entry ∈ entries, entry.2.name? = some name →
      entry.2 = .lookedUp name (.ok field) := by
  induction entries with
  | nil =>
    cases h
    exact ⟨rfl, fun entry hmem => absurd hmem List.not_mem_nil⟩
  | cons entry entries ih =>
    cases h with
    | cons hfirst hrest =>
      cases hfirst with
      | find id field =>
        obtain ⟨hb, hfound⟩ := ih hrest
        exact ⟨hb, List.forall_mem_cons.mpr ⟨fun _ => rfl, hfound⟩⟩
      | other _ hother =>
        obtain ⟨hb, hfound⟩ := ih hrest
        exact ⟨hb, List.forall_mem_cons.mpr ⟨fun hname => absurd hname hother, hfound⟩⟩

/-- What was found is known from then on. -/
lemma eq_known_of_found {actor : Option TaskId} (h : Run name a entries b)
    (hfound : (actor, .lookedUp name (.ok field)) ∈ entries) : b = .known field := by
  obtain ⟨before, after, rfl⟩ := List.append_of_mem hfound
  obtain ⟨status, -, hrest⟩ := h.exists_of_append
  cases hrest with
  | cons hfirst hafter =>
    cases hfirst with
    | find id field => exact hafter.of_known.1
    | other _ hother => exact absurd rfl hother

/-- Only the task that asked can lose its question, and the field is unknown then. -/
lemma of_loss {id : TaskId} {event : Event} (h : Run name a (entries ++ [(some id, event)]) b)
    (hloss : event.isLoss name) : Run name a entries (.asked id) ∧ b = .unknown := by
  obtain ⟨status, hbefore, hlast⟩ := h.exists_of_append
  cases hlast with
  | cons hfirst hrest =>
    cases hrest
    cases hfirst with
    | ask id | answer id field | find id field => exact absurd hloss (by simp [Event.isLoss])
    | fail id e | abandon id => exact ⟨hbefore, rfl⟩
    | other _ hother => exact absurd hloss (by simp [(Event.of_name?_ne hother).2.2])

/-- A task that asks has asked before or does so now. -/
lemma asked_or_mem {id : TaskId} (h : Run name a entries (.asked id)) :
    a = .asked id ∨ (some id, .asked name) ∈ entries := by
  induction entries generalizing a with
  | nil =>
    cases h
    exact .inl rfl
  | cons entry entries ih =>
    cases h with
    | cons hfirst hrest =>
      obtain rfl | hmem := ih hrest
      · cases hfirst with
        | ask _ => exact .inr List.mem_cons_self
        | other _ hother => exact .inl rfl
      · exact .inr (List.mem_cons_of_mem _ hmem)

/-- If every event that counts raises a level, or is paid for by another that counts as a cost, then
the final level bounds the number of events. -/
lemma countP_add_le (gain cost : System.Entry → Bool) (level : Status → Nat)
    (hnext : ∀ {a entry b}, Next name a entry b →
      (gain entry).toNat + level a ≤ (cost entry).toNat + level b)
    (h : Run name a entries b) :
    entries.countP gain + level a ≤ entries.countP cost + level b := by
  induction h with
  | nil status => exact le_refl _
  | @cons a b c entry entries hfirst _ ih =>
    have hone := hnext hfirst
    have hgain : (entry :: entries).countP gain = entries.countP gain + (gain entry).toNat := by
      cases h : gain entry <;> simp [h]
    have hcost : (entry :: entries).countP cost = entries.countP cost + (cost entry).toNat := by
      cases h : cost entry <;> simp [h]
    omega

/-- All questions have come to an end but for one that is open. -/
lemma countP_question_le_ends (h : Run name a entries b) :
    entries.countP (·.2.isQuestion name) + a.openQuestions ≤
      entries.countP (System.endsQuestion name) + b.openQuestions := by
  refine countP_add_le _ _ openQuestions (fun hnext => ?_) h
  cases hnext with
  | other status hother =>
    obtain ⟨hquestion, hstorage, hloss⟩ := Event.of_name?_ne hother
    simp [System.endsQuestion, hquestion, hstorage, hloss]
  | _ =>
    simp [System.endsQuestion, Event.isQuestion, Event.question?, Event.isStorage, Event.isLoss,
      openQuestions]

/-- All questions were lost but for one that is open or was answered. -/
lemma countP_question_le_losses (h : Run name a entries b) :
    entries.countP (·.2.isQuestion name) + (a.openQuestions + a.fields) ≤
      entries.countP (·.2.isLoss name) + (b.openQuestions + b.fields) := by
  refine countP_add_le _ _ (fun status => status.openQuestions + status.fields)
    (fun hnext => ?_) h
  cases hnext with
  | other status hother =>
    obtain ⟨hquestion, -, hloss⟩ := Event.of_name?_ne hother
    simp [hquestion, hloss]
  | _ => simp [Event.isQuestion, Event.question?, Event.isLoss, openQuestions, fields]

/-- A field is stored only if none is known. -/
lemma countP_storage_le (h : Run name a entries b) :
    entries.countP (·.2.isStorage name) + a.fields ≤ b.fields := by
  have hcount := countP_add_le (·.2.isStorage name) (fun _ => false) fields
    (fun hnext => by
      cases hnext with
      | other status hother => simp [(Event.of_name?_ne hother).2.1]
      | _ => simp [Event.isStorage, fields]) h
  simpa using hcount

end Run

/-! ### Status in a system -/

namespace Fits

variable {name : String} {cached : Option CustomField} {places : TaskId → Place} {status : Status}
  {id : TaskId} {place : Place}

/-- A task that does not ask for the field may change its place as long as it does not come to ask
for it. -/
lemma update (h : status.Fits name cached places) (hbefore : places id ≠ .asking name)
    (hafter : place ≠ .asking name) :
    status.Fits name cached (Function.update places id place) := by
  cases status with
  | unknown =>
    refine ⟨h.1, fun other hother => ?_⟩
    exact h.2 other (ne_and_eq_of_update hother hafter).2
  | asked asker =>
    have hne : asker ≠ id := fun heq => hbefore (heq ▸ h.2)
    exact ⟨h.1, (Function.update_of_ne hne place places).trans h.2⟩
  | known field => exact h

variable {c : Cell} {awake : TaskId → Prop}

/-- The open question is that of the task that asks. -/
lemma eq_asked (h : status.Fits name c.value? places) (horder : c.Orderly name awake places)
    (hasking : places id = .asking name) : status = .asked id := by
  have hholder : c.holder? = some id := horder.atHead id hasking
  cases status with
  | unknown => exact absurd hasking (h.2 id)
  | asked asker => rw [horder.eq_of_asking hholder h.2]
  | known field => exact nomatch (Cell.value?_of_holder? hholder).symm.trans h

/-- While the cell is vacant and the head of the line has not asked, the field is unknown. -/
lemma eq_unknown (h : status.Fits name c.value? places) (horder : c.Orderly name awake places)
    (hvacant : c.value? = none)
    (hasking : ∀ head, c.holder? = some head → places head ≠ .asking name) : status = .unknown := by
  cases status with
  | unknown => rfl
  | asked asker => exact absurd h.2 (hasking asker (horder.atHead asker h.2))
  | known field => exact nomatch hvacant.symm.trans h

/-- A field that is cached is known. -/
lemma eq_known {field : CustomField} (h : status.Fits name cached places)
    (hcached : cached = some field) : status = .known field := by
  subst hcached
  cases status with
  | unknown | asked asker => exact nomatch h.1
  | known known => rw [Option.some.inj h]

end Fits

end Status

/-- Whoever leaves a line leaves the cell as empty as it was. -/
lemma FieldCache.cached?_leave (cache : FieldCache) (name other : String) (id : TaskId) :
    (cache.leave name id).cached? other = cache.cached? other := by
  rw [cached?, cached?]
  obtain rfl | hne := eq_or_ne other name
  · cases hcell : cache.cell other with
    | filled field => rw [leave_of_filled hcell, hcell]
    | vacant line =>
      rw [cell_leave_self hcell]
      rfl
  · rw [cell_leave_of_ne hne]

/-- Whoever enters a line leaves the cells as full or empty as they were. -/
lemma FieldCache.cached?_enter (cache : FieldCache) {name : String} {line : List TaskId}
    (hcell : cache.cell name = .vacant line) (other : String) (id : TaskId) :
    (cache.enter name id).cached? other = cache.cached? other := by
  rw [cached?, cached?]
  obtain rfl | hne := eq_or_ne other name
  · rw [cell_enter_self hcell, hcell]
    rfl
  · rw [cell_enter_of_ne hne]

/-- The events of every move go by the rules. -/
theorem Place.Move.runs {id : TaskId} {place place' : Place} {w w' : World σ} {events : List Event}
    {places : TaskId → Place} {awake : TaskId → Prop} {name : String} {status : Status}
    (h : Place.Move id place w events place' w') (hplace : places id = place)
    (horder : (w.cache.cell name).Orderly name awake places)
    (hfits : status.Fits name (w.cache.cached? name) places) :
    ∃ status', Status.Run name status (events.map (some id, ·)) status' ∧
      status'.Fits name (w'.cache.cached? name) (Function.update places id place') := by
  cases h with
  | stay hcache hwoken hnone =>
    refine ⟨status, .of_other status ?_, ?_⟩
    · intro entry hmem
      obtain ⟨event, hevent, rfl⟩ := List.mem_map.mp hmem
      simp [hnone event hevent]
    · rwa [hcache, ← hplace, Function.update_eq_self]
  | @enter entered _ line hcell =>
    have hbefore : places id ≠ .asking name := by simp [hplace]
    refine ⟨status, .nil status, ?_⟩
    rw [FieldCache.cached?_enter w.cache hcell]
    exact hfits.update hbefore nofun
  | @find _ found _ field hfrom hcell =>
    have hbefore : places id ≠ .asking name := by
      rw [hplace]
      obtain rfl | rfl := hfrom <;> nofun
    refine ⟨status, ?_, hfits.update hbefore nofun⟩
    obtain rfl | hne := eq_or_ne name found
    · have hcached : w.cache.cached? name = some field := by rw [FieldCache.cached?, hcell]; rfl
      rw [hfits.eq_known hcached]
      exact .single (.find id field)
    · exact .single (.other status (by simpa [Event.name?] using hne.symm))
  | @ask asked _ _ hholder hcache hwoken =>
    have hbefore : places id ≠ .asking name := by simp [hplace]
    rw [hcache]
    obtain rfl | hne := eq_or_ne name asked
    · have hvacant : (w.cache.cell name).value? = none := Cell.value?_of_holder? hholder
      have hhead : ∀ head, (w.cache.cell name).holder? = some head → places head ≠ .asking name :=
        fun head hhead => Option.some.inj (hhead.symm.trans hholder) ▸ hbefore
      obtain rfl := hfits.eq_unknown horder hvacant hhead
      exact ⟨.asked id, .single (.ask id), hfits.1, Function.update_self ..⟩
    · exact ⟨status, .single (.other status (by simpa [Event.name?] using hne.symm)),
        hfits.update hbefore (by simpa using hne.symm)⟩
  | @fill filled _ _ field hcache hwoken hothers =>
    rw [hcache, FieldCache.cached?]
    obtain rfl | hne := eq_or_ne name filled
    · rw [hfits.eq_asked horder hplace, FieldCache.cell_fill_self]
      exact ⟨.known field, .cons (.answer id field) (.single (.find id field)), rfl⟩
    · have hbefore : places id ≠ .asking name := by simpa [hplace] using hne.symm
      rw [FieldCache.cell_fill_of_ne hne]
      refine ⟨status, .of_other status ?_, hfits.update hbefore nofun⟩
      simp [Event.name?, hne.symm]
  | @leave _ left _ _ _ hfrom hcache hwoken hnext hevents =>
    rw [hcache, FieldCache.cached?_leave]
    by_cases hasking : place = .asking name
    · -- The question of the task is lost.
      subst hasking
      obtain rfl : name = left := by simpa using hfrom
      have hholder := horder.atHead id hplace
      obtain rfl := hfits.eq_asked horder hplace
      refine ⟨.unknown, ?_, hfits.1, fun other hother => ?_⟩
      · obtain rfl | ⟨-, e, rfl⟩ := hevents
        · exact .single (.abandon id)
        · exact .single (.fail id e)
      · obtain ⟨hne, hother⟩ := ne_and_eq_of_update hother nofun
        exact hne (horder.eq_of_asking hholder hother)
    · have hbefore : places id ≠ .asking name := by rwa [hplace]
      refine ⟨status, .of_other status ?_, hfits.update hbefore nofun⟩
      intro entry hmem
      obtain ⟨event, hevent, rfl⟩ := List.mem_map.mp hmem
      obtain rfl | ⟨rfl, e, rfl⟩ := hevents
      · obtain rfl | rfl := hfrom
        · exact absurd hevent List.not_mem_nil
        · obtain rfl := List.mem_singleton.mp hevent
          simpa [Event.name?] using hasking
      · obtain rfl := List.mem_singleton.mp hevent
        simpa [Event.name?] using hasking

/-- The events of a chain of moves go by the rules. -/
lemma Place.runs_of_chain {id : TaskId} {place place' : Place} {w w' : World σ}
    {events : List Event} {places : TaskId → Place} {name : String} {status : Status}
    (h : Chain (Place.Move id) place w events place' w') (hplace : places id = place)
    (horder : ∀ name, (w.cache.cell name).Orderly name (fun j => j = id ∨ j ∈ w.woken) places)
    (hfits : status.Fits name (w.cache.cached? name) places) :
    ∃ status', Status.Run name status (events.map (some id, ·)) status' ∧
      status'.Fits name (w'.cache.cached? name) (Function.update places id place') := by
  induction h generalizing places status with
  | refl place w =>
    rw [← hplace, Function.update_eq_self]
    exact ⟨status, .nil status, hfits⟩
  | @head a b c w w₁ w' events later hfirst _ ih =>
    obtain ⟨between, hrun, hbetween⟩ := hfirst.runs hplace (horder name) hfits
    obtain ⟨last, hlater, hlast⟩ :=
      ih (Function.update_self id b places) (hfirst.orderly hplace horder) hbetween
    rw [Function.update_idem] at hlast
    rw [List.map_append]
    exact ⟨last, hrun.append hlater, hlast⟩

/-- Fields are inserted by the rules. -/
lemma FieldCache.runs_insertAll {cache : FieldCache} {awake : TaskId → Prop}
    {places : TaskId → Place} {name : String} {status : Status} (fields : List CustomField)
    (horder : ∀ name, (cache.cell name).Orderly name awake places)
    (hfits : status.Fits name (cache.cached? name) places) :
    ∃ status',
      Status.Run name status
        ((cache.newFields fields).map fun field => (none, .stored field.name field)) status' ∧
      status'.Fits name ((cache.insertAll fields).1.cached? name) places := by
  induction fields generalizing cache status with
  | nil => exact ⟨status, .nil status, hfits⟩
  | cons field fields ih =>
    have hnext : ∃ between, Status.Run name status
        ((if (cache.insert field).2 then [field] else []).map
          fun field => (none, .stored field.name field)) between ∧
        between.Fits name ((cache.insert field).1.cached? name) places := by
      obtain ⟨hcell, hinsert⟩ | hinsert := cache.insert_cases field
      · rw [hinsert, cached?]
        obtain rfl | hne := eq_or_ne name field.name
        · rw [cell_fill_self]
          have horder := horder field.name
          rw [cached?, hcell] at hfits
          rw [hcell] at horder
          obtain rfl := hfits.eq_unknown horder rfl (by simp [Cell.holder?, Cell.line])
          exact ⟨.known field, .single (.insert field), rfl⟩
        · rw [cell_fill_of_ne hne]
          exact ⟨status, .single (.other status (by simpa [Event.name?] using hne.symm)), hfits⟩
      · rw [hinsert]
        exact ⟨status, .nil status, hfits⟩
    obtain ⟨between, hrun, hbetween⟩ := hnext
    obtain ⟨last, hlater, hlast⟩ := ih (orderly_insert horder field) hbetween
    rw [newFields, List.map_append]
    exact ⟨last, hrun.append hlater, hlast⟩

namespace System

variable {providers : TaskId → Provider R} {s s' : System σ R α} {id : TaskId} {name : String}
  {status : Status} {entries : List Entry}

/-- The status of a name agrees with a system. -/
abbrev StatusFits (s : System σ R α) (name : String) (status : Status) : Prop :=
  status.Fits name (s.world.cache.cached? name) s.placeOf

/-- The events of a turn go by the rules. -/
lemma Turn.runs {provider : Provider R} {events : List Event} {slot : Slot σ R α}
    (h : Turn provider id s events slot s') (horder : s.Orderly)
    (hfits : s.StatusFits name status) :
    ∃ status', Status.Run name status (events.map (some id, ·)) status' ∧
      s'.StatusFits name status' := by
  obtain ⟨w, w', hbefore, hchain, -, hafter⟩ := h.exists_place_chain
  have hstart : status.Fits name (w.cache.cached? name) s.placeOf := by
    rw [hbefore.cache]
    exact hfits
  obtain ⟨status', hrun, hend⟩ :=
    Place.runs_of_chain hchain rfl (horder.at_turn hbefore) hstart
  refine ⟨status', hrun, ?_⟩
  rw [← hafter.cache, ← h.placeOf] at hend
  exact hend

/-- What an action shows goes by the rules. -/
lemma Shows.runs {action : Action σ R α} (h : Shows providers s action entries)
    (horder : s.Orderly) (hfits : s.StatusFits name status) :
    ∃ status', Status.Run name status entries status' ∧
      (s.act providers action).StatusFits name status' := by
  cases h with
  | spawn task isNew =>
    refine ⟨status, .nil status, ?_⟩
    rw [act, StatusFits, placeOf_spawn isNew]
    exact hfits
  | poll hturn => exact hturn.runs horder hfits
  | @drop id task hslot => exact (turn_of_drop (providers id) hslot).runs horder hfits
  | pollOver hover =>
    rw [act, poll_of_over hover]
    exact ⟨status, .nil status, hfits⟩
  | dropOver hover =>
    rw [act, drop_of_over hover]
    exact ⟨status, .nil status, hfits⟩
  | insert fields => exact FieldCache.runs_insertAll fields horder hfits
  | fire signal => exact ⟨status, .nil status, hfits⟩
  | host change => exact ⟨status, .nil status, hfits⟩

/-- The events of a history go by the rules. -/
theorem History.runs {actions : List (Action σ R α)} (h : History providers s actions entries)
    (horder : s.Orderly) (hfits : s.StatusFits name status) :
    ∃ status', Status.Run name status entries status' ∧
      (s.after providers actions).StatusFits name status' := by
  induction h generalizing status with
  | nil s => exact ⟨status, .nil status, hfits⟩
  | cons hfirst _ ih =>
    obtain ⟨between, hrun, hbetween⟩ := hfirst.runs horder hfits
    obtain ⟨last, hlater, hlast⟩ := ih (hfirst.orderly horder) hbetween
    exact ⟨last, hrun.append hlater, hlast⟩

/-- There is a status for every name. -/
lemma exists_statusFits (s : System σ R α) (name : String) :
    ∃ status, s.StatusFits name status := by
  cases hcached : s.world.cache.cached? name with
  | some field => exact ⟨.known field, hcached⟩
  | none =>
    by_cases hasking : ∃ id, s.placeOf id = .asking name
    · obtain ⟨id, hid⟩ := hasking
      exact ⟨.asked id, hcached, hid⟩
    · exact ⟨.unknown, hcached, not_exists.mp hasking⟩

/-- At the beginning what is cached is known, and nothing else. -/
lemma NotBegun.statusFits (h : s.NotBegun) (name : String) :
    s.StatusFits name (.ofCached (s.world.cache.cached? name)) := by
  cases hcached : s.world.cache.cached? name with
  | some field => exact hcached
  | none => exact ⟨hcached, fun id => by rw [h.placeOf id]; exact nofun⟩

/-! ### Questions in a system -/

/-- What a task has shown is what is due to it among the entries. -/
lemma mem_eventsOf {event : Event} : event ∈ eventsOf id entries ↔ (some id, event) ∈ entries := by
  simp [eventsOf, List.mem_filterMap]

/-- What a task that only looks up a field has shown: its success, if it has a result. -/
inductive LooksUp (name : String) (complete : CustomField → α) :
    List Event → Phase σ R α → Prop where
  | underWay (shown : List Event) (lookup : Lookup) :
    LooksUp name complete shown (.slot (.running (.lookup name complete lookup)))
  | found {shown : List Event} {field : CustomField} :
    .lookedUp name (.ok field) ∈ shown →
      LooksUp name complete shown (.slot (.finished (.ok (complete field))))
  | failed (shown : List Event) (e : Error) :
    LooksUp name complete shown (.slot (.finished (.error e)))
  | dropped (shown : List Event) : LooksUp name complete shown (.slot .dropped)

/-- A task that only looks up a field has its result from a success that it has shown. -/
lemma LooksUp.move {provider : Provider R} {complete : CustomField → α} {shown events : List Event}
    {phase phase' : Phase σ R α} {w w' : World σ} (h : LooksUp name complete shown phase)
    (hmove : Task.Move provider id phase w events phase' w') :
    LooksUp name complete (shown ++ events) phase' := by
  cases h with
  | found | failed | dropped => cases hmove
  | underWay lookup =>
    cases hmove with
    | drop _ => exact .dropped _
    | resolve hlookup =>
      cases hlookup with
      | enter _ | ask _ | wait _ => exact .underWay _ _
      | unknown _ _ | fail _ _ => exact .failed _ _
      | find _ _ => exact .found (List.mem_append_right _ (List.mem_singleton_self _))
      | fill _ _ =>
        exact .found (List.mem_append_right _ (List.mem_cons_of_mem _ (List.mem_singleton_self _)))

/-- A task that only looks up a field and succeeds has found it. -/
lemma History.exists_found {actions : List (Action σ R α)} {complete : CustomField → α} {a : α}
    (h : History providers s actions entries)
    (hslot : s.slots[id]? = some (.running (.lookup name complete .fresh)))
    (hend : (s.after providers actions).slots[id]? = some (.finished (.ok a))) :
    ∃ field, (some id, .lookedUp name (.ok field)) ∈ entries ∧ a = complete field := by
  have hstart : LooksUp name complete [] (.slot (.running (.lookup name complete .fresh)) :
      Phase σ R α) := .underWay [] .fresh
  obtain ⟨slot, hslot', hlooksUp⟩ := h.preserves (P := fun shown phase _ =>
    LooksUp name complete shown phase) LooksUp.move (fun hP _ => hP) hslot hstart
  obtain rfl : slot = .finished (.ok a) := Option.some.inj (hslot'.symm.trans hend)
  cases hlooksUp with
  | found hmem => exact ⟨_, mem_eventsOf.mp hmem, rfl⟩

/-- How a name is asked for between two states of a system. -/
structure AskedInTurn (providers : TaskId → Provider R) (s s' : System σ R α) (name : String)
    (entries : List Entry) : Prop where
  /-- The events go by the rules, and lead to the status that the name has then. -/
  rules : ∃ status, Status.Run name (.ofCached (s.world.cache.cached? name)) entries status ∧
    s'.StatusFits name status
  /-- At most one task asks for the field. -/
  asker : ∀ id other, s'.placeOf id = .asking name → s'.placeOf other = .asking name → other = id
  /-- At every moment, also in the middle of a turn, all questions but one have come to an end. -/
  openQuestion : ∀ before, before <+: entries →
    before.countP (·.2.isQuestion name) ≤ before.countP (endsQuestion name) + 1
  /-- The field is stored at most once. -/
  storage : entries.countP (·.2.isStorage name) ≤ 1
  /-- Every lookup that succeeds finds the field that is stored. -/
  found : ∀ actor field, (actor, .lookedUp name (.ok field)) ∈ entries →
    s'.world.cache.cached? name = some field
  /-- A field that is stored is not replaced and does not vanish, and nobody asks for it again. -/
  stays : ∀ {field : CustomField} {later : List (Action σ R α)} {laterEntries : List Entry},
    s'.world.cache.cached? name = some field → History providers s' later laterEntries →
      (s'.after providers later).world.cache.cached? name = some field ∧
        ∀ entry ∈ laterEntries, entry.2.isQuestion name = false ∧ entry.2.isStorage name = false
  /-- Every task that only looks up the field has the field that is stored as its result, if it has
  one. -/
  result : ∀ {id : TaskId} {complete : CustomField → α} {later : List (Action σ R α)}
    {laterEntries : List Entry} {a : α},
    s'.slots[id]? = some (.running (.lookup name complete .fresh)) →
      History providers s' later laterEntries →
      (s'.after providers later).slots[id]? = some (.finished (.ok a)) →
      ∃ field, (s'.after providers later).world.cache.cached? name = some field ∧
        a = complete field
  /-- The server was asked at most once more than questions were lost. -/
  questions : s'.world.lookups.count name ≤
    s.world.lookups.count name + entries.countP (·.2.isLoss name) + 1

/-- Questions on record are those that were shown. -/
lemma History.count_lookups {actions : List (Action σ R α)}
    (h : History providers s actions entries) (name : String) :
    (s.after providers actions).world.lookups.count name =
      s.world.lookups.count name + entries.countP (·.2.isQuestion name) := by
  rw [h.records.lookups, List.count_append, List.count_filterMap, List.countP_map]
  rfl

/-- In every history of a system that has not begun, with any number of tasks, each name is asked
for by one task at a time, is stored at most once and is not asked for again after that. -/
theorem History.asked_in_turn {actions : List (Action σ R α)} (hbegin : s.NotBegun)
    (h : History providers s actions entries) (name : String) :
    AskedInTurn providers s (s.after providers actions) name entries := by
  have horder := h.orderly hbegin.orderly
  obtain ⟨status, hrun, hfits⟩ := h.runs hbegin.orderly (hbegin.statusFits name)
  constructor
  case rules => exact ⟨status, hrun, hfits⟩
  case asker =>
    intro id other hid hother
    exact (horder name).eq_of_asking ((horder name).atHead id hid) hother
  case openQuestion =>
    rintro before ⟨after, rfl⟩
    obtain ⟨between, hbefore, -⟩ := hrun.exists_of_append
    have hends := hbefore.countP_question_le_ends
    have hbetween := between.openQuestions_add_fields_le_one
    omega
  case storage =>
    have hstorage := hrun.countP_storage_le
    have hlast := status.openQuestions_add_fields_le_one
    omega
  case found =>
    intro actor field hfound
    obtain rfl := hrun.eq_known_of_found hfound
    exact hfits
  case stays =>
    intro field later laterEntries hcached hlater
    obtain rfl := hfits.eq_known hcached
    obtain ⟨status', hrun', hfits'⟩ := hlater.runs horder hfits
    obtain ⟨rfl, hknown⟩ := hrun'.of_known
    refine ⟨hfits', fun entry hmem => ?_⟩
    by_cases hname : entry.2.name? = some name
    · rw [hknown entry hmem hname]
      exact ⟨rfl, rfl⟩
    · exact ⟨(Event.of_name?_ne hname).1, (Event.of_name?_ne hname).2.1⟩
  case result =>
    intro id complete later laterEntries a hslot hlater hend
    obtain ⟨field, hfound, ha⟩ := hlater.exists_found hslot hend
    obtain ⟨status', hrun', hfits'⟩ := hlater.runs horder hfits
    obtain rfl := hrun'.eq_known_of_found hfound
    exact ⟨field, hfits', ha⟩
  case questions =>
    have hlosses := hrun.countP_question_le_losses
    have hlast := status.openQuestions_add_fields_le_one
    rw [h.count_lookups name]
    omega

/-- A server that fails at the first question and is slow in any case. -/
def flakyProvider : Provider Nat where
  fetcher _ := .hang
  source names := .pause (.finish
    (if names.length = 1 then .error (.fetch "down") else .ok (some ⟨"f1", "Team", none⟩)))
  checksFields := true

/-- Three tasks that want the same field. -/
def teamSystem : System Unit Nat CustomField :=
  .ofTasks (.initial ()) (List.replicate 3 (.lookup "Team" (fun field => field) .fresh))

/-- The first task fails, the second is dropped when it is its turn, and the third succeeds. -/
def teamActions : List (Action Unit Nat CustomField) :=
  [.poll 0, .poll 1, .poll 2, .poll 0, .drop 1, .poll 2, .insert [⟨"f2", "Team", none⟩], .poll 2]

/-- The three tasks have not begun. -/
lemma notBegun_teamSystem : teamSystem.NotBegun where
  tasks := by simp [teamSystem, ofTasks, Task.IsNew]
  lines _ := rfl

/-- The server is asked twice: by the first task, which fails, and, as the second is dropped, by the
third; a field from outside comes too late. -/
theorem asked_in_turn_after_failure :
    ∃ entries, History (fun _ => flakyProvider) teamSystem teamActions entries ∧
      AskedInTurn (fun _ => flakyProvider) teamSystem
        (teamSystem.after (fun _ => flakyProvider) teamActions) "Team" entries ∧
      (teamSystem.after (fun _ => flakyProvider) teamActions).world.lookups = ["Team", "Team"] := by
  obtain ⟨entries, hhistory⟩ := exists_history (fun _ => flakyProvider) teamSystem teamActions
  refine ⟨entries, hhistory, hhistory.asked_in_turn notBegun_teamSystem "Team", ?_⟩
  cbv

end System

end IssueQuery

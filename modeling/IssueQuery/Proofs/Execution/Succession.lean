import IssueQuery.Proofs.Execution.Questions

/-!
# Failures at a cell

When a task loses its question, since the server fails or does not know the field or since the task
is given up, its right to ask passes on.  `System.HasRight` says what it is to have the right: the
task is alive, and it is asking already or it is awake and asks at its next poll.  A task that waits
for a vacant cell is never left without somebody who has the right
(`System.Orderly.exists_hasRight`).

`System.PassesOn` says what a loss does to a system: it is reported to the task alone, the cell
stays vacant, the line closes up, and everything else is as it was.  `System.History.passes_on` puts
both together for all histories.
-/

namespace IssueQuery

variable {σ R α : Type}

/-! ### Cells apart from a task -/

/-- A cell as it is for all but one task. -/
def Cell.without (id : TaskId) : Cell → Cell
  | filled field => filled field
  | vacant line => vacant (line.filter (· ≠ id))

namespace Cell

variable {c : Cell} {id : TaskId}

/-- Without a task that does not stand in its line a cell is what it was. -/
lemma without_eq_self (h : id ∉ c.line) : c.without id = c := by
  cases c with
  | filled field => rfl
  | vacant line =>
    have hne : ∀ other ∈ line, other ≠ id := fun other hmem heq => h (heq ▸ hmem)
    rw [without, List.filter_eq_self.mpr (by simpa using hne)]

/-- A cell that is filled without a task is filled. -/
lemma without_eq_filled {field : CustomField} (h : c.without id = filled field) :
    c = filled field := by
  cases c with
  | filled known => exact h
  | vacant line => exact nomatch h

/-- Whether a task has left the line does not matter without it. -/
lemma without_erase (line : List TaskId) (id : TaskId) :
    (vacant (line.erase id)).without id = (vacant line).without id := by
  rw [without, without]
  congr 1
  induction line with
  | nil => rfl
  | cons head rest ih =>
    obtain rfl | hne := eq_or_ne head id
    · simp
    · simpa [hne] using ih

end Cell

/-- For all other tasks, a move leaves a cell as it is or fills it. -/
lemma Place.Move.cell_without {id : TaskId} {place place' : Place} {w w' : World σ}
    {events : List Event} (h : Place.Move id place w events place' w') (name : String) :
    (w'.cache.cell name).without id = (w.cache.cell name).without id ∨
      ∃ field, .stored name field ∈ events ∧ w'.cache.cell name = .filled field := by
  cases h with
  | stay hcache _ _ | ask _ hcache _ =>
    rw [hcache]
    exact .inl rfl
  | @enter entered _ line hcell =>
    left
    obtain rfl | hne := eq_or_ne name entered
    · rw [FieldCache.cell_enter_self hcell, hcell]
      simp [Cell.without]
    · rw [FieldCache.cell_enter_of_ne hne]
  | find _ _ => exact .inl rfl
  | @fill filled _ _ field hcache _ _ =>
    rw [hcache]
    obtain rfl | hne := eq_or_ne name filled
    · exact .inr ⟨field, List.mem_cons_self, FieldCache.cell_fill_self ..⟩
    · rw [FieldCache.cell_fill_of_ne hne]
      exact .inl rfl
  | @leave _ left _ _ _ _ hcache _ _ _ =>
    left
    rw [hcache]
    obtain rfl | hne := eq_or_ne name left
    · cases hcell : w.cache.cell name with
      | filled field => rw [FieldCache.leave_of_filled hcell, hcell]
      | vacant line => rw [FieldCache.cell_leave_self hcell, Cell.without_erase]
    · rw [FieldCache.cell_leave_of_ne hne]

/-- For all other tasks, moves leave a cell as it is or fill it. -/
lemma Place.cell_without_of_chain {id : TaskId} {place place' : Place} {w w' : World σ}
    {events : List Event} (h : Chain (Place.Move id) place w events place' w') (name : String) :
    (w'.cache.cell name).without id = (w.cache.cell name).without id ∨
      ∃ field, .stored name field ∈ events ∧ w'.cache.cell name = .filled field := by
  induction h with
  | refl place w => exact .inl rfl
  | head hfirst _ ih =>
    obtain hlater | ⟨field, hmem, hcell⟩ := ih
    · obtain hnow | ⟨field, hmem, hcell⟩ := hfirst.cell_without name
      · exact .inl (hlater.trans hnow)
      · rw [hcell] at hlater
        exact .inr ⟨field, List.mem_append_left _ hmem, Cell.without_eq_filled hlater⟩
    · exact .inr ⟨field, List.mem_append_right _ hmem, hcell⟩

/-- All that were awake stay awake. -/
lemma Place.woken_subset_of_chain {id : TaskId} {place place' : Place} {w w' : World σ}
    {events : List Event} (h : Chain (Place.Move id) place w events place' w') :
    w.woken ⊆ w'.woken := by
  induction h with
  | refl place w => exact List.Subset.refl _
  | head hfirst _ ih =>
    refine List.Subset.trans ?_ ih
    cases hfirst with
    | enter _ | find _ _ => exact List.Subset.refl _
    | stay _ hwoken _ | ask _ _ hwoken | fill _ hwoken _ | leave _ _ hwoken _ _ => exact hwoken

/-! ### Losses -/

/-- The slot reports the loss of a question: an error of the lookup is the result of the task, and a
question is given up if the task is cancelled or dropped. -/
def Slot.Reports (slot : Slot σ R α) : Event → Prop
  | .lookedUp _ (.error e) => slot = .finished (.error e)
  | .abandoned _ => slot = .finished (.error .cancelled) ∨ slot = .dropped
  | _ => False

/-- A task that reports a loss is over. -/
lemma Slot.Reports.over {slot : Slot σ R α} {event : Event} (h : slot.Reports event) :
    ∀ task, slot ≠ .running task := by
  rintro task rfl
  unfold Slot.Reports at h
  split at h
  · exact nomatch h
  · exact h.elim nofun nofun
  · exact h

/-- A move of a lookup that loses its question ends it with an error and shows nothing else. -/
lemma Lookup.Move.of_loss {source : FieldSource} {id : TaskId} {name : String}
    {lookup : Lookup} {progress : Progress (Except Error CustomField) Lookup} {w w' : World σ}
    {events : List Event} {event : Event} {lost : String}
    (h : Move source id name (.pending lookup) w events progress w') (hmem : event ∈ events)
    (hloss : event.isLoss lost) :
    ∃ e, events = [event] ∧ event = .lookedUp name (.error e) ∧ progress = .ready (.error e) := by
  cases h with
  | enter _ | wait _ => exact absurd hmem List.not_mem_nil
  | find _ _ | ask _ =>
    obtain rfl := List.mem_singleton.mp hmem
    exact absurd hloss nofun
  | fill _ _ =>
    rw [List.mem_pair] at hmem
    obtain rfl | rfl := hmem <;> exact absurd hloss nofun
  | unknown _ _ | fail _ _ =>
    obtain rfl := List.mem_singleton.mp hmem
    exact ⟨_, rfl, rfl, rfl⟩

/-- All that a task may give up is one question. -/
lemma Place.eq_abandoned_of_mem {place : Place} {event : Event}
    (hmem : event ∈ place.abandonment) : ∃ name, place.abandonment = [.abandoned name] ∧
      event = .abandoned name := by
  cases place with
  | outside | waiting name => exact absurd hmem List.not_mem_nil
  | asking name =>
    obtain rfl := List.mem_singleton.mp hmem
    exact ⟨name, rfl, rfl⟩

/-- A loss brings its task to an end and is the last that is shown of it. -/
lemma Task.Move.of_loss {provider : Provider R} {id : TaskId} {phase phase' : Phase σ R α}
    {w w' : World σ} {events : List Event} {event : Event} {lost : String}
    (h : Move provider id phase w events phase' w') (hmem : event ∈ events)
    (hloss : event.isLoss lost) :
    events = [event] ∧ ∃ slot, phase' = .slot slot ∧ slot.Reports event := by
  cases h with
  | refuse | cancelStart | start | watch | cancelRequest | awaitPage | endRequest | fire | await =>
    exact absurd hmem List.not_mem_nil
  | request =>
    obtain rfl := List.mem_singleton.mp hmem
    exact absurd hloss nofun
  | lookUp hmove | resolve hmove =>
    obtain ⟨e, hevents, rfl, rfl⟩ := hmove.of_loss hmem hloss
    exact ⟨hevents, _, rfl, rfl⟩
  | cancelLookup =>
    obtain ⟨name, hevents, rfl⟩ := Place.eq_abandoned_of_mem hmem
    exact ⟨hevents, _, rfl, .inl rfl⟩
  | drop =>
    obtain ⟨name, hevents, rfl⟩ := Place.eq_abandoned_of_mem hmem
    exact ⟨hevents, _, rfl, .inr rfl⟩

/-- In a chain of moves a loss is the last that is shown, and the task reports it. -/
lemma Task.of_loss_of_chain {provider : Provider R} {id : TaskId} {phase phase' : Phase σ R α}
    {w w' : World σ} {events : List Event} {event : Event} {lost : String}
    (h : Chain (Move provider id) phase w events phase' w') (hmem : event ∈ events)
    (hloss : event.isLoss lost) :
    (∃ before, events = before ++ [event]) ∧ ∃ slot, phase' = .slot slot ∧ slot.Reports event := by
  induction h with
  | refl => exact absurd hmem List.not_mem_nil
  | head hfirst hrest ih =>
    obtain hmem | hmem := List.mem_append.mp hmem
    · obtain ⟨rfl, slot, rfl, hreports⟩ := hfirst.of_loss hmem hloss
      obtain ⟨rfl, rfl⟩ := eq_of_chain_of_over hrest hreports.over
      exact ⟨⟨[], rfl⟩, slot, rfl, hreports⟩
    · obtain ⟨⟨before, rfl⟩, hend⟩ := ih hmem
      exact ⟨⟨_, (List.append_assoc ..).symm⟩, hend⟩

/-! ### The right to ask -/

/-- A task at the head of the line of a vacant cell asks with the first of its moves, unless it is
dropped. -/
lemma Lookup.Move.asks {source : FieldSource} {id : TaskId} {looked name : String}
    {lookup : Lookup} {progress : Progress (Except Error CustomField) Lookup} {w w' : World σ}
    {events : List Event} (h : Move source id looked (.pending lookup) w events progress w')
    (hplace : lookup.place looked = .waiting name)
    (hholder : (w.cache.cell name).holder? = some id) : .asked name ∈ events := by
  cases h with
  | enter _ | wait _ | fill _ _ | unknown _ _ | fail _ _ => cases hplace
  | find hlookup hcell =>
    cases lookup with
    | fresh | asking reply => cases hplace
    | queued =>
      obtain rfl : looked = name := by simpa [Lookup.place] using hplace
      rw [hcell] at hholder
      cases hholder
  | ask _ =>
    obtain rfl : looked = name := by simpa [Lookup.place] using hplace
    exact List.mem_singleton_self _

namespace System

variable {providers : TaskId → Provider R} {s s' : System σ R α} {id : TaskId} {name : String}
  {entries : List Entry}

/-- A task that is at the head of a line asks in its turn, unless it is dropped. -/
lemma Turn.asks {provider : Provider R} {events : List Event} {slot : Slot σ R α}
    (h : Turn provider id s events slot s') (hkept : slot ≠ .dropped)
    (hplace : s.placeOf id = .waiting name)
    (hholder : (s.world.cache.cell name).holder? = some id) : .asked name ∈ events := by
  obtain ⟨hslot, hbefore, hchain, hblocked, -, -⟩ := h
  rename_i task w w'
  rw [System.placeOf, hslot] at hplace
  rw [← hbefore.cache] at hholder
  cases hchain with
  | refl => exact absurd hholder ((hblocked task rfl).of_waiting hplace).2
  | head hfirst hrest =>
    cases hfirst with
    | refuse | cancelStart | start | awaitPage | endRequest | fire | await =>
      cases hplace
    | lookUp hmove | resolve hmove => exact List.mem_append_left _ (hmove.asks hplace hholder)
    | watch hwait _ | cancelLookup hwait _ _ _ =>
      exact absurd hholder (hwait.of_waiting hplace).2
    | drop _ =>
      obtain ⟨-, hphase⟩ := Task.eq_of_chain_of_over hrest (by simp)
      exact absurd (Phase.slot.inj hphase) hkept

/-- A task has the right to ask for a name: it is alive, and asks already or is awake to do so. -/
structure HasRight (providers : TaskId → Provider R) (s : System σ R α) (name : String)
    (id : TaskId) : Prop where
  holder : (s.world.cache.cell name).holder? = some id
  alive : ∃ task, s.slots[id]? = some (.running task)
  turn : s.placeOf id = .asking name ∨ s.placeOf id = .waiting name ∧ id ∈ s.world.woken
  /-- If it has not asked yet, it asks when it is polled. -/
  asks : s.placeOf id = .waiting name →
    ∀ entries, Shows providers s (.poll id) entries → (some id, .asked name) ∈ entries

/-- Only a task that is alive stands at a cell. -/
lemma exists_running (h : s.placeOf id ≠ .outside) :
    ∃ task, s.slots[id]? = some (.running task) := by
  rw [placeOf] at h
  cases hslot : s.slots[id]? with
  | none => exact absurd (by rw [hslot]; rfl) h
  | some slot =>
    cases slot with
    | running task => exact ⟨task, rfl⟩
    | finished result | dropped => exact absurd (by rw [hslot]; rfl) h

/-- Who holds a cell has the right to ask. -/
lemma Orderly.hasRight (providers : TaskId → Provider R) (horder : s.Orderly)
    (hholder : (s.world.cache.cell name).holder? = some id) : s.HasRight providers name id := by
  obtain ⟨line, hcell⟩ := Cell.eq_vacant_of_holder? hholder
  have hstanding := (horder name).standing id (by rw [hcell]; exact List.mem_cons_self)
  refine ⟨hholder, exists_running ?_, ?_, ?_⟩
  · obtain hplace | hplace := hstanding <;> simp [hplace]
  · obtain hplace | hplace := hstanding
    · exact .inr ⟨hplace, (horder name).awake id hplace (.inr hholder)⟩
    · exact .inl hplace
  · intro hplace entries hshows
    cases hshows with
    | @poll _ events progress hturn =>
      exact List.mem_map_of_mem (hturn.asks (Slot.ofProgress_ne_dropped progress) hplace hholder)
    | pollOver hover =>
      have hstands : s.placeOf id ≠ .outside := by simp [hplace]
      obtain ⟨task, hslot⟩ := exists_running hstands
      exact absurd hslot (hover task)

/-- If a task waits for a vacant cell, somebody has the right to ask. -/
lemma Orderly.exists_hasRight (providers : TaskId → Provider R) (horder : s.Orderly)
    (hvacant : s.world.cache.cached? name = none) (hwaiting : s.placeOf id = .waiting name) :
    ∃ head, s.HasRight providers name head := by
  have hmem : id ∈ (s.world.cache.cell name).line := (horder name).inLine id hvacant hwaiting
  obtain ⟨head, rest, hline⟩ := List.exists_cons_of_ne_nil (List.ne_nil_of_mem hmem)
  refine ⟨head, horder.hasRight providers ?_⟩
  rw [Cell.holder?, hline]
  rfl

/-- What it does to a system when a task loses its question for a name. -/
structure PassesOn (providers : TaskId → Provider R) (s s' : System σ R α) (name : String)
    (id : TaskId) (event : Event) (entries : List Entry) : Prop where
  /-- It was the question of the task itself. -/
  own : s.placeOf id = .asking name ∨ (some id, .asked name) ∈ entries
  reported : ∃ slot, s'.slots[id]? = some slot ∧ slot.Reports event
  /-- The other tasks are left alone, and stay awake if they were. -/
  others : ∀ other, other ≠ id → s'.slots[other]? = s.slots[other]? ∧
    (other ∈ s.world.woken → other ∈ s'.world.woken)
  /-- Nothing is cached. -/
  vacant : s'.world.cache.cached? name = none
  /-- The line closes up. -/
  line : s'.world.cache.cell name = (s.world.cache.cell name).without id
  /-- If tasks are left in the line, one of them has the right to ask now. -/
  next : ∀ other, s'.placeOf other = .waiting name →
    ∃ head, s'.HasRight providers name head ∧ s'.placeOf head = .waiting name
  /-- The cells of other names are as they were for all other tasks, unless the task has filled them
  before. -/
  elsewhere : ∀ looked, looked ≠ name →
    (s'.world.cache.cell looked).without id = (s.world.cache.cell looked).without id ∨
      ∃ field, (some id, .stored looked field) ∈ entries ∧
        s'.world.cache.cell looked = .filled field

/-- A turn in which a question is lost passes the right on. -/
lemma Turn.passesOn {events : List Event} {slot : Slot σ R α} {event : Event}
    (h : Turn (providers id) id s events slot s') (horder : s.Orderly) (hmem : event ∈ events)
    (hloss : event.isLoss name) :
    PassesOn providers s s' name id event (events.map (some id, ·)) := by
  have horder' : s'.Orderly := h.orderly horder
  -- The loss is the last event of the turn, and the task is over then.
  obtain ⟨⟨before, hevents⟩, hreports⟩ : (∃ before, events = before ++ [event]) ∧
      slot.Reports event := by
    obtain ⟨-, -, hchain, -, -, -⟩ := h
    obtain ⟨hbefore, slot', hphase, hreports⟩ := Task.of_loss_of_chain hchain hmem hloss
    exact ⟨hbefore, Phase.slot.inj hphase ▸ hreports⟩
  have hgone : s'.placeOf id = .outside := by
    rw [h.placeOf, Function.update_self]
    cases slot with
    | running task => exact absurd rfl (hreports.over task)
    | finished result | dropped => rfl
  -- By the rules the question was the task's own, and the field is unknown then.
  obtain ⟨status, hfits⟩ := s.exists_statusFits name
  obtain ⟨status', hrun, hfits'⟩ := h.runs horder hfits
  rw [hevents, List.map_append] at hrun
  obtain ⟨hasked, rfl⟩ := hrun.of_loss hloss
  obtain ⟨hvacant, hnobody⟩ := hfits'
  obtain ⟨w, w', hbefore, hchain, -, hafter⟩ := h.exists_place_chain
  have hcells : ∀ looked,
      (s'.world.cache.cell looked).without id = (s.world.cache.cell looked).without id ∨
        ∃ field, (some id, .stored looked field) ∈ events.map (some id, ·) ∧
          s'.world.cache.cell looked = .filled field := by
    intro looked
    rw [hafter.cache, ← hbefore.cache]
    obtain hcell | ⟨field, hstored, hcell⟩ := Place.cell_without_of_chain hchain looked
    · exact .inl hcell
    · exact .inr ⟨field, List.mem_map_of_mem hstored, hcell⟩
  constructor
  case own =>
    obtain rfl | hmem := hasked.asked_or_mem
    · exact .inl hfits.2
    · rw [hevents, List.map_append]
      exact .inr (List.mem_append_left _ hmem)
  case reported => exact ⟨slot, h.getElem?_self, hreports⟩
  case others =>
    intro other hne
    refine ⟨h.getElem?_of_ne hne.symm, fun hwoken => ?_⟩
    exact hafter.woken other (Place.woken_subset_of_chain hchain (hbefore.woken other hwoken hne))
      hne
  case vacant => exact hvacant
  case line =>
    have hline : id ∉ (s'.world.cache.cell name).line :=
      (horder' name).notMem_line (by simp [hgone]) (by simp [hgone])
    obtain hcell | ⟨field, -, hcell⟩ := hcells name
    · rwa [Cell.without_eq_self hline] at hcell
    · rw [FieldCache.cached?, hcell] at hvacant
      cases hvacant
  case next =>
    intro other hwaiting
    obtain ⟨head, hright⟩ := horder'.exists_hasRight providers hvacant hwaiting
    refine ⟨head, hright, ?_⟩
    obtain hasking | ⟨hwaits, -⟩ := hright.turn
    · exact absurd hasking (hnobody head)
    · exact hwaits
  case elsewhere => exact fun looked _ => hcells looked

/-- Every action in which a question is lost passes the right on. -/
lemma Shows.passesOn {action : Action σ R α} {event : Event}
    (h : Shows providers s action entries) (horder : s.Orderly) (hmem : (some id, event) ∈ entries)
    (hloss : event.isLoss name) :
    PassesOn providers s (s.act providers action) name id event entries := by
  cases h with
  | spawn _ _ | pollOver _ | dropOver _ | fire _ | host _ => exact absurd hmem List.not_mem_nil
  | poll hturn =>
    obtain ⟨_, hevent, heq⟩ := List.mem_map.mp hmem
    obtain ⟨⟨⟩, rfl⟩ := Prod.mk.inj heq
    exact hturn.passesOn horder hevent hloss
  | drop hslot =>
    obtain ⟨_, hevent, heq⟩ := List.mem_map.mp hmem
    obtain ⟨⟨⟩, rfl⟩ := Prod.mk.inj heq
    exact (turn_of_drop (providers id) hslot).passesOn horder hevent hloss
  | insert fields =>
    obtain ⟨field, -, heq⟩ := List.mem_map.mp hmem
    exact nomatch (Prod.mk.inj heq).1

/-- In every history of a system that has not begun: a task that waits for a vacant cell is not
alone, since somebody has the right to ask, and one that waits for a filled cell is awake; and when
a question is lost, be it by a failure or since its task is given up, the right passes on. -/
theorem History.passes_on {actions : List (Action σ R α)} (hbegin : s.NotBegun)
    (h : History providers s actions entries) (name : String) :
    let s' := s.after providers actions
    (∀ id, s'.placeOf id = .waiting name →
      (s'.world.cache.cached? name = none → ∃ head, s'.HasRight providers name head) ∧
        (s'.world.cache.cached? name ≠ none → id ∈ s'.world.woken)) ∧
    ∀ action entries id event, Shows providers s' action entries → (some id, event) ∈ entries →
      event.isLoss name →
      PassesOn providers s' (s'.act providers action) name id event entries := by
  have horder := h.orderly hbegin.orderly
  refine ⟨fun id hwaiting => ⟨fun hvacant => ?_, fun hfilled => ?_⟩, ?_⟩
  · exact horder.exists_hasRight providers hvacant hwaiting
  · exact (horder name).awake id hwaiting (.inl hfilled)
  · intro action entries id event hshows hmem hloss
    exact hshows.passesOn horder hmem hloss

/-- The task that asks is dropped while two others wait: the first of them has the right now. -/
theorem passes_on_when_dropped :
    let s := teamSystem.after (fun _ => flakyProvider) [.poll 0, .poll 1, .poll 2]
    PassesOn (fun _ => flakyProvider) s (s.drop 0) "Team" 0 (.abandoned "Team")
        [(some 0, .abandoned "Team")] ∧
      (s.drop 0).world.cache.cell "Team" = .vacant [1, 2] ∧ (s.drop 0).world.woken = [1] := by
  obtain ⟨entries, hhistory⟩ :=
    exists_history (fun _ => flakyProvider) teamSystem [.poll 0, .poll 1, .poll 2]
  have hslot : (teamSystem.after (fun _ => flakyProvider) [.poll 0, .poll 1, .poll 2]).slots[0]? =
      some (.running (.lookup "Team" (fun field => field)
        (.asking (.finish (.error (.fetch "down")))))) := by
    cbv
  have hpasses := (hhistory.passes_on notBegun_teamSystem "Team").2 _ _ 0 (.abandoned "Team")
    (.drop hslot) (List.mem_singleton_self _) rfl
  refine ⟨hpasses, ?_, ?_⟩
  · cbv
  · cbv

end System

end IssueQuery

import IssueQuery.Proofs.Execution.History

/-!
# The order at the cells

The line of a cell and the places of the tasks have to agree.  `Cell.Orderly` says how: each task
stands in line at most once, and only if it waits for the field or asks for it; the task that asks
is at the head of the line; and a task that could go on, since the cell is filled or it has come to
the head, is awake.  `Place.Move` is what is left of a move of a task if one looks at the cells
only, and `Place.Move.orderly` says that every move keeps the order.  From there it is carried over
to turns, actions and histories (`System.History.orderly`).
-/

namespace IssueQuery

variable {σ R α : Type}

/-! ### Cells after a move -/

namespace FieldCache

variable {cache : FieldCache} {name other : String} {id : TaskId} {line : List TaskId}

/-- Whoever enters a vacant cell stands at the end of its line. -/
lemma cell_enter_self (hcell : cache.cell name = .vacant line) :
    (cache.enter name id).cell name = .vacant (line ++ [id]) := by
  rw [enter, hcell, cell_setCell_self]

/-- To enter one cell leaves the others as they are. -/
lemma cell_enter_of_ne (hne : other ≠ name) :
    (cache.enter name id).cell other = cache.cell other := by
  rw [enter]
  split
  · rfl
  · exact cell_setCell_of_ne cache _ hne

/-- Whoever leaves a vacant cell is taken out of its line. -/
lemma cell_leave_self (hcell : cache.cell name = .vacant line) :
    (cache.leave name id).cell name = .vacant (line.erase id) := by
  rw [leave, hcell, cell_setCell_self]

/-- There is no line to leave at a filled cell. -/
lemma leave_of_filled {field : CustomField} (hcell : cache.cell name = .filled field) :
    cache.leave name id = cache := by
  rw [leave, hcell]

/-- To leave one cell leaves the others as they are. -/
lemma cell_leave_of_ne (hne : other ≠ name) :
    (cache.leave name id).cell other = cache.cell other := by
  rw [leave]
  split
  · rfl
  · exact cell_setCell_of_ne cache _ hne

/-- A cell that was filled has the field. -/
lemma cell_fill_self (cache : FieldCache) (name : String) (field : CustomField) :
    (cache.fill name field).cell name = .filled field :=
  cell_setCell_self cache name _

/-- To fill one cell leaves the others as they are. -/
lemma cell_fill_of_ne {field : CustomField} (hne : other ≠ name) :
    (cache.fill name field).cell other = cache.cell other :=
  cell_setCell_of_ne cache _ hne

end FieldCache

/-- A field goes into its cell if the cell is vacant and has no line. -/
lemma FieldCache.insert_cases (cache : FieldCache) (field : CustomField) :
    cache.cell field.name = .vacant [] ∧ cache.insert field = (cache.fill field.name field, true) ∨
      cache.insert field = (cache, false) := by
  rw [insert]
  split
  next hcell => exact .inl ⟨hcell, rfl⟩
  next => exact .inr rfl

/-- Only a vacant cell is anybody's to fill. -/
lemma Cell.eq_vacant_of_holder? {c : Cell} {id : TaskId} (h : c.holder? = some id) :
    ∃ rest, c = .vacant (id :: rest) := by
  cases c with
  | filled field => exact nomatch h
  | vacant line =>
    cases line with
    | nil => exact nomatch h
    | cons head rest =>
      obtain rfl : head = id := by simpa [Cell.holder?, Cell.line] using h
      exact ⟨rest, rfl⟩

/-- A cell that is somebody's to fill has no field. -/
lemma Cell.value?_of_holder? {c : Cell} {id : TaskId} (h : c.holder? = some id) :
    c.value? = none := by
  obtain ⟨rest, rfl⟩ := eq_vacant_of_holder? h
  rfl

/-! ### Moves at the cells -/

/-- What a move of a task does at the cells. -/
inductive Place.Move (id : TaskId) :
    Place → World σ → List Event → Place → World σ → Prop where
  /-- Nothing happens at the cells. -/
  | stay {place : Place} {w w' : World σ} {events : List Event} :
    w'.cache = w.cache → w.woken ⊆ w'.woken → (∀ event ∈ events, event.name? = none) →
      Move id place w events place w'
  | enter {name : String} {w : World σ} {line : List TaskId} :
    w.cache.cell name = .vacant line →
      Move id .outside w [] (.waiting name) { w with cache := w.cache.enter name id }
  | find {place : Place} {name : String} {w : World σ} {field : CustomField} :
    place = .outside ∨ place = .waiting name → w.cache.cell name = .filled field →
      Move id place w [.lookedUp name (.ok field)] .outside w
  | ask {name : String} {w w' : World σ} :
    (w.cache.cell name).holder? = some id → w'.cache = w.cache → w.woken ⊆ w'.woken →
      Move id (.waiting name) w [.asked name] (.asking name) w'
  /-- All others in line are woken. -/
  | fill {name : String} {w w' : World σ} {field : CustomField} :
    w'.cache = w.cache.fill name field → w.woken ⊆ w'.woken →
      (∀ other ∈ (w.cache.cell name).line, other ≠ id → other ∈ w'.woken) →
      Move id (.asking name) w [.stored name field, .lookedUp name (.ok field)] .outside w'
  /-- The next in line is woken if it was the task's turn. -/
  | leave {place : Place} {name : String} {w w' : World σ} {events : List Event} :
    place = .waiting name ∨ place = .asking name → w'.cache = w.cache.leave name id →
      w.woken ⊆ w'.woken →
      ((w.cache.cell name).holder? = some id →
        ∀ next, ((w.cache.leave name id).cell name).holder? = some next → next ∈ w'.woken) →
      events = place.abandonment ∨
        place = .asking name ∧ (∃ e, events = [.lookedUp name (.error e)]) →
      Move id place w events .outside w'

/-- Nothing is shown, and nothing happens at the cells. -/
lemma Place.Move.rest {id : TaskId} {place : Place} {w w' : World σ}
    (hcache : w'.cache = w.cache) (hwoken : w.woken ⊆ w'.woken) :
    Place.Move id place w [] place w' :=
  .stay hcache hwoken fun _ hmem => absurd hmem List.not_mem_nil

namespace Lookup

variable {source : FieldSource} {id : TaskId} {name : String} {lookup : Lookup} {w w₁ w' : World σ}
  {events : List Event} {progress : Progress (Except Error CustomField) Lookup}

/-- Where a task stands after a move of its lookup. -/
def placeAfter (name : String) : Progress (Except Error CustomField) Lookup → Place
  | .pending lookup => lookup.place name
  | .ready _ => .outside

/-- To leave a line after a quiet step. -/
lemma place_move_of_release {place : Place} {u : Unit}
    (hplace : place = .waiting name ∨ place = .asking name)
    (hquiet : World.Quiet w w₁) (h : (release id name).run w₁ = (u, w'))
    (hevents : events = place.abandonment ∨
      place = .asking name ∧ ∃ e, events = [.lookedUp name (.error e)]) :
    Place.Move id place w events .outside w' := by
  rw [run_release, hquiet.cache] at h
  obtain ⟨-, rfl⟩ := Prod.mk.inj h
  refine .leave hplace rfl ?_ ?_ hevents
  · have hwoken := hquiet.woken
    split
    · exact List.Subset.trans hwoken (List.subset_append_left _ _)
    · exact hwoken
  · intro hholder next hnext
    simp [hholder, hnext]

/-- To give a lookup up after a quiet step is to leave the line that the task stands in, if any. -/
lemma place_move_of_abandon {u : Unit} (hquiet : World.Quiet w w₁)
    (h : (lookup.abandon id name).run w₁ = (u, w')) :
    Place.Move id (lookup.place name) w (lookup.place name).abandonment .outside w' := by
  cases lookup with
  | fresh =>
    obtain ⟨-, rfl⟩ := Prod.mk.inj h
    exact .rest hquiet.cache hquiet.woken
  | queued => exact place_move_of_release (.inl rfl) hquiet h (.inl rfl)
  | asking reply => exact place_move_of_release (.inr rfl) hquiet h (.inl rfl)

/-- Every move of a lookup is a move at the cells. -/
lemma Move.place (h : Move source id name (.pending lookup) w events progress w') :
    Place.Move id (lookup.place name) w events (placeAfter name progress) w' := by
  cases h with
  | enter hcell => exact .enter hcell
  | find hlookup hcell =>
    refine .find ?_ hcell
    cases lookup with
    | fresh => exact .inl rfl
    | queued => exact .inr rfl
    | asking reply => exact absurd rfl (hlookup reply)
  | ask hholder => exact .ask hholder rfl (List.Subset.refl _)
  | wait hpoll =>
    have hquiet := Activity.quiet_of_poll hpoll
    exact .rest hquiet.cache hquiet.woken
  | fill hpoll hshare =>
    have hquiet := Activity.quiet_of_poll hpoll
    obtain ⟨-, rfl⟩ := Prod.mk.inj hshare
    refine .fill ?_ (List.Subset.trans hquiet.woken (List.subset_append_left _ _)) ?_
    · rw [← hquiet.cache]
    · intro other hmem hne
      rw [← hquiet.cache] at hmem
      exact List.mem_append_right _ (List.mem_filter.mpr ⟨hmem, by simpa using hne⟩)
  | unknown hpoll hrelease =>
    exact place_move_of_release (.inr rfl) (Activity.quiet_of_poll hpoll) hrelease
      (.inr ⟨rfl, _, rfl⟩)
  | fail hpoll hrelease =>
    exact place_move_of_release (.inr rfl) (Activity.quiet_of_poll hpoll) hrelease
      (.inr ⟨rfl, _, rfl⟩)

end Lookup

/-- Whatever is left to be looked up, a task stands nowhere until the lookup begins. -/
lemma Phase.place_toLookUp (p : Pipeline σ R) (signal : Option Signal)
    (complete : Completion σ R α) (d : Directive) (names : List String) :
    (toLookUp p signal complete d names).place = .outside := by
  cases names <;> rfl

/-- A fetch stands where its lookup does. -/
lemma Phase.place_lookingUp (p : Pipeline σ R) (signal : Option Signal)
    (complete : Completion σ R α) (d : Directive) (name : String) (rest : List String)
    (progress : Progress (Except Error CustomField) Lookup) :
    (lookingUp p signal complete d name rest progress).place =
      Lookup.placeAfter name progress := by
  rcases progress with (e | field) | lookup
  · rfl
  · exact place_toLookUp p signal complete d rest
  · rfl

/-- A task that only looks up a field stands where its lookup does. -/
lemma Phase.place_resolving (name : String) (complete : CustomField → α)
    (progress : Progress (Except Error CustomField) Lookup) :
    (resolving name complete progress : Phase σ R α).place = Lookup.placeAfter name progress := by
  cases progress <;> rfl

/-- Every move of a task is a move at the cells. -/
theorem Task.Move.place {provider : Provider R} {id : TaskId} {phase phase' : Phase σ R α}
    {w w' : World σ} {events : List Event} (h : Move provider id phase w events phase' w') :
    Place.Move id phase.place w events phase'.place w' := by
  cases h with
  | refuse _ | cancelStart _ _ => exact .rest rfl (List.Subset.refl _)
  | start _ _ =>
    rw [Phase.place_toLookUp]
    exact .rest rfl (List.Subset.refl _)
  | lookUp hmove =>
    rw [Phase.place_lookingUp]
    exact hmove.place
  | cancelLookup _ _ hquiet habandon => exact Lookup.place_move_of_abandon hquiet habandon
  | request hquiet _ _ =>
    refine .stay hquiet.cache hquiet.woken ?_
    intro event hevent
    obtain rfl := List.mem_singleton.mp hevent
    rfl
  | resolve hmove =>
    rw [Phase.place_resolving]
    exact hmove.place
  | @await signal result w w' slot hquiet hslot =>
    have hplace : slot.place = .outside := by
      obtain rfl | rfl := hslot <;> rfl
    rw [show (Phase.slot slot).place = .outside from hplace]
    exact .rest hquiet.cache hquiet.woken
  | watch _ hquiet | cancelRequest hquiet _ | awaitPage hquiet | endRequest hquiet | fire hquiet =>
    exact .rest hquiet.cache hquiet.woken
  | @drop task w w' habandon =>
    cases task with
    | fetch p signal complete state =>
      cases state with
      | lookingUp d name lookup rest =>
        exact Lookup.place_move_of_abandon (.refl w) habandon
      | fresh | requesting jql reply =>
        obtain ⟨-, rfl⟩ := Prod.mk.inj habandon
        exact .rest rfl (List.Subset.refl _)
    | lookup name complete state => exact Lookup.place_move_of_abandon (.refl w) habandon
    | fire signal result | await signal result =>
      obtain ⟨-, rfl⟩ := Prod.mk.inj habandon
      exact .rest rfl (List.Subset.refl _)

/-! ### Order -/

/-- Whoever stands at a place where a task has not gone was there before. -/
lemma ne_and_eq_of_update {places : TaskId → Place} {id other : TaskId} {place target : Place}
    (h : Function.update places id place other = target) (hne : place ≠ target) :
    other ≠ id ∧ places other = target := by
  obtain rfl | hother := eq_or_ne other id
  · rw [Function.update_self] at h
    exact absurd h hne
  · rw [Function.update_of_ne hother] at h
    exact ⟨hother, h⟩

/-- The line of a cell agrees with the places where the tasks stand, and those that could go on are
awake. -/
structure Cell.Orderly (name : String) (c : Cell) (awake : TaskId → Prop)
    (places : TaskId → Place) : Prop where
  nodup : c.line.Nodup
  standing : ∀ id ∈ c.line, places id = .waiting name ∨ places id = .asking name
  /-- Whoever waits for a vacant cell stands in its line. -/
  inLine : ∀ id, c.value? = none → places id = .waiting name → id ∈ c.line
  /-- Only the head of the line asks. -/
  atHead : ∀ id, places id = .asking name → c.holder? = some id
  awake : ∀ id, places id = .waiting name → c.value? ≠ none ∨ c.holder? = some id → awake id

namespace Cell.Orderly

variable {name : String} {c : Cell} {awake awake' : TaskId → Prop} {places : TaskId → Place}
  {id : TaskId} {place : Place}

/-- A filled cell has no line, and nobody asks for it. -/
lemma of_filled {field : CustomField} (hasking : ∀ id, places id ≠ .asking name)
    (hawake : ∀ id, places id = .waiting name → awake id) :
    (Cell.filled field).Orderly name awake places where
  nodup := List.nodup_nil
  standing := nofun
  inLine := nofun
  atHead id hid := absurd hid (hasking id)
  awake id hid _ := hawake id hid

/-- A line stays in order when more tasks are awake. -/
lemma mono (h : c.Orderly name awake places) (hawake : ∀ id, awake id → awake' id) :
    c.Orderly name awake' places where
  nodup := h.nodup
  standing := h.standing
  inLine := h.inLine
  atHead := h.atHead
  awake id hwaiting hgo := hawake id (h.awake id hwaiting hgo)

/-- A task that does not stand in the line may change its place for any other than one at the
cell. -/
lemma update (h : c.Orderly name awake places) (hline : id ∉ c.line)
    (hwaiting : place ≠ .waiting name) (hasking : place ≠ .asking name) :
    c.Orderly name awake (Function.update places id place) where
  nodup := h.nodup
  standing other hmem := by
    have hne : other ≠ id := fun heq => hline (heq ▸ hmem)
    rw [Function.update_of_ne hne]
    exact h.standing other hmem
  inLine other hvacant hother :=
    h.inLine other hvacant (ne_and_eq_of_update hother hwaiting).2
  atHead other hother := h.atHead other (ne_and_eq_of_update hother hasking).2
  awake other hother := h.awake other (ne_and_eq_of_update hother hwaiting).2

/-- Whoever stands elsewhere does not stand in the line. -/
lemma notMem_line (h : c.Orderly name awake places) (hwaiting : places id ≠ .waiting name)
    (hasking : places id ≠ .asking name) : id ∉ c.line := fun hmem =>
  (h.standing id hmem).elim hwaiting hasking

/-- Whoever is in line and is asked for is the only one who asks. -/
lemma eq_of_asking (h : c.Orderly name awake places) (hholder : c.holder? = some id)
    {other : TaskId} (hother : places other = .asking name) : other = id :=
  Option.some.inj ((h.atHead other hother).symm.trans hholder)

/-- A task goes to the end of the line. -/
lemma enter {line : List TaskId} (h : (vacant line).Orderly name awake places)
    (hwaiting : places id ≠ .waiting name) (hasking : places id ≠ .asking name)
    (hawake : awake id) :
    (vacant (line ++ [id])).Orderly name awake (Function.update places id (.waiting name)) := by
  have hline : id ∉ line := h.notMem_line hwaiting hasking
  constructor
  case nodup =>
    exact List.nodup_append.mpr ⟨h.nodup, List.nodup_singleton id, by
      rintro other hmem _ hid rfl
      exact hline (List.mem_singleton.mp hid ▸ hmem)⟩
  case standing =>
    intro other hmem
    obtain rfl | hne := eq_or_ne other id
    · exact .inl (Function.update_self ..)
    · rw [Function.update_of_ne hne]
      have hmem : other ∈ line := by simpa [Cell.line, hne] using hmem
      exact h.standing other hmem
  case inLine =>
    intro other _ hother
    obtain rfl | hne := eq_or_ne other id
    · exact List.mem_append_right _ (List.mem_singleton_self other)
    · rw [Function.update_of_ne hne] at hother
      exact List.mem_append_left _ (h.inLine other rfl hother)
  case atHead =>
    intro other hother
    have hplace : Place.waiting name ≠ .asking name := by simp
    have hhead : line.head? = some other :=
      h.atHead other (ne_and_eq_of_update hother hplace).2
    simp [holder?, Cell.line, hhead]
  case awake =>
    intro other hother hgo
    obtain rfl | hne := eq_or_ne other id
    · exact hawake
    · rw [Function.update_of_ne hne] at hother
      have hmem : other ∈ line := h.inLine other rfl hother
      have hhead : (line ++ [id]).head? = some other := by
        simpa [value?, holder?, Cell.line] using hgo
      rw [List.head?_append_of_ne_nil line (List.ne_nil_of_mem hmem)] at hhead
      exact h.awake other hother (.inr hhead)

/-- The head of the line asks. -/
lemma ask (h : c.Orderly name awake places) (hholder : c.holder? = some id) :
    c.Orderly name awake (Function.update places id (.asking name)) where
  nodup := h.nodup
  standing other hmem := by
    obtain rfl | hne := eq_or_ne other id
    · exact .inr (Function.update_self ..)
    · rw [Function.update_of_ne hne]
      exact h.standing other hmem
  inLine other hvacant hother := h.inLine other hvacant (ne_and_eq_of_update hother nofun).2
  atHead other hother := by
    obtain rfl | hne := eq_or_ne other id
    · exact hholder
    · exact h.atHead other (Function.update_of_ne hne (.asking name) places ▸ hother)
  awake other hother := h.awake other (ne_and_eq_of_update hother nofun).2

/-- The answer fills the cell, and all others in line are awake. -/
lemma fill {field : CustomField} (h : c.Orderly name awake places)
    (hid : places id = .asking name) (hawake : ∀ other ∈ c.line, other ≠ id → awake other) :
    (filled field).Orderly name awake (Function.update places id .outside) := by
  have hholder : c.holder? = some id := h.atHead id hid
  obtain ⟨rest, rfl⟩ := eq_vacant_of_holder? hholder
  refine .of_filled ?_ ?_
  · intro other hother
    obtain ⟨hne, hother⟩ := ne_and_eq_of_update hother nofun
    exact hne (h.eq_of_asking hholder hother)
  · intro other hother
    obtain ⟨hne, hother⟩ := ne_and_eq_of_update hother nofun
    exact hawake other (h.inLine other rfl hother) hne

/-- A task leaves the line, and the next one is awake if it was the task's turn. -/
lemma leave {line : List TaskId} (h : (vacant line).Orderly name awake places)
    (hawake : line.head? = some id → ∀ next, (line.erase id).head? = some next → awake next) :
    (vacant (line.erase id)).Orderly name awake (Function.update places id .outside) := by
  -- Whoever else was at the head of the line stays there.
  have hstays : ∀ {other}, other ≠ id → line.head? = some other →
      (line.erase id).head? = some other := by
    rintro other hne hhead
    cases line with
    | nil => exact nomatch hhead
    | cons head rest =>
      obtain rfl : head = other := by simpa using hhead
      simp [hne]
  constructor
  case nodup => exact h.nodup.erase id
  case standing =>
    intro other hmem
    obtain ⟨hne, hmem⟩ := (List.Nodup.mem_erase_iff h.nodup).mp hmem
    rw [Function.update_of_ne hne]
    exact h.standing other hmem
  case inLine =>
    intro other _ hother
    obtain ⟨hne, hother⟩ := ne_and_eq_of_update hother nofun
    exact (List.Nodup.mem_erase_iff h.nodup).mpr ⟨hne, h.inLine other rfl hother⟩
  case atHead =>
    intro other hother
    obtain ⟨hne, hother⟩ := ne_and_eq_of_update hother nofun
    exact hstays hne (h.atHead other hother)
  case awake =>
    intro other hother hgo
    obtain ⟨hne, hother⟩ := ne_and_eq_of_update hother nofun
    have hnext : (line.erase id).head? = some other := by
      simpa [value?, holder?, Cell.line] using hgo
    have hmem : other ∈ line := h.inLine other rfl hother
    obtain ⟨head, rest, rfl⟩ := List.exists_cons_of_ne_nil (List.ne_nil_of_mem hmem)
    obtain rfl | hhead := eq_or_ne head id
    · exact hawake rfl other hnext
    · have hsame : some head = some other := (hstays hhead rfl).symm.trans hnext
      exact h.awake other hother (.inr hsame)

/-- A cell without a line is filled from outside. -/
lemma seed {field : CustomField} (h : (vacant []).Orderly name awake places) :
    (filled field).Orderly name awake places :=
  .of_filled (fun id hasking => nomatch h.atHead id hasking)
    fun id hwaiting => nomatch h.inLine id rfl hwaiting

end Cell.Orderly

namespace FieldCache

variable {cache : FieldCache} {awake : TaskId → Prop} {places : TaskId → Place}

/-- To insert a field keeps the order. -/
lemma orderly_insert (horder : ∀ name, (cache.cell name).Orderly name awake places)
    (field : CustomField) (name : String) :
    ((cache.insert field).1.cell name).Orderly name awake places := by
  obtain ⟨hcell, hinsert⟩ | hinsert := cache.insert_cases field
  · rw [hinsert]
    obtain rfl | hne := eq_or_ne name field.name
    · rw [cell_fill_self]
      exact (hcell ▸ horder field.name).seed
    · rw [cell_fill_of_ne hne]
      exact horder name
  · rw [hinsert]
    exact horder name

/-- Fields that are inserted one after the other keep every line in order. -/
lemma orderly_insertAll (horder : ∀ name, (cache.cell name).Orderly name awake places)
    (fields : List CustomField) (name : String) :
    ((cache.insertAll fields).1.cell name).Orderly name awake places := by
  induction fields generalizing cache with
  | nil => exact horder name
  | cons field fields ih => exact ih (orderly_insert horder field)

end FieldCache

/-- Every move of a task keeps the order at all cells.  The task itself counts as awake in the
course of its turn. -/
theorem Place.Move.orderly {id : TaskId} {place place' : Place} {w w' : World σ}
    {events : List Event} {places : TaskId → Place} (h : Place.Move id place w events place' w')
    (hplace : places id = place)
    (horder : ∀ name, (w.cache.cell name).Orderly name (fun j => j = id ∨ j ∈ w.woken) places)
    (name : String) :
    (w'.cache.cell name).Orderly name (fun j => j = id ∨ j ∈ w'.woken)
      (Function.update places id place') := by
  have hmono : w.woken ⊆ w'.woken →
      (w.cache.cell name).Orderly name (fun j => j = id ∨ j ∈ w'.woken) places :=
    fun hwoken => (horder name).mono fun _ hawake => hawake.imp_right fun hmem => hwoken hmem
  cases h with
  | stay hcache hwoken hnone =>
    rw [hcache, ← hplace, Function.update_eq_self]
    exact hmono hwoken
  | @enter entered _ line hcell =>
    have horder := horder name
    have hwaiting : places id ≠ .waiting name := by simp [hplace]
    have hasking : places id ≠ .asking name := by simp [hplace]
    obtain rfl | hne := eq_or_ne name entered
    · rw [FieldCache.cell_enter_self hcell]
      rw [hcell] at horder
      exact horder.enter hwaiting hasking (.inl rfl)
    · rw [FieldCache.cell_enter_of_ne hne]
      exact horder.update (horder.notMem_line hwaiting hasking) (by simpa using hne.symm) nofun
  | @find _ found _ field hfrom hcell =>
    have horder := horder name
    refine horder.update ?_ nofun nofun
    obtain rfl | hne := eq_or_ne name found
    · rw [hcell]
      exact List.not_mem_nil
    · refine horder.notMem_line ?_ ?_
      all_goals
        rw [hplace]
        obtain rfl | rfl := hfrom <;> simp [hne.symm]
  | @ask asked _ _ hholder hcache hwoken =>
    have horder := hmono hwoken
    rw [hcache]
    obtain rfl | hne := eq_or_ne name asked
    · exact horder.ask hholder
    · have hline : id ∉ (w.cache.cell name).line :=
        horder.notMem_line (by simp [hplace, hne.symm]) (by simp [hplace])
      exact horder.update hline nofun (by simpa using hne.symm)
  | @fill filled _ _ field hcache hwoken hothers =>
    have horder := hmono hwoken
    rw [hcache]
    obtain rfl | hne := eq_or_ne name filled
    · rw [FieldCache.cell_fill_self]
      exact horder.fill hplace fun other hmem hother => .inr (hothers other hmem hother)
    · rw [FieldCache.cell_fill_of_ne hne]
      have hline : id ∉ (w.cache.cell name).line :=
        horder.notMem_line (by simp [hplace]) (by simp [hplace, hne.symm])
      exact horder.update hline nofun nofun
  | @leave _ left _ _ _ hfrom hcache hwoken hnext hevents =>
    have horder := hmono hwoken
    rw [hcache]
    obtain rfl | hne := eq_or_ne name left
    · cases hcell : w.cache.cell name with
      | filled field =>
        rw [FieldCache.leave_of_filled hcell]
        exact horder.update (by rw [hcell]; exact List.not_mem_nil) nofun nofun
      | vacant line =>
        rw [hcell] at horder hnext
        rw [FieldCache.cell_leave_self hcell] at hnext ⊢
        exact horder.leave fun hhead next hnext' => .inr (hnext hhead next hnext')
    · rw [FieldCache.cell_leave_of_ne hne]
      have hline : id ∉ (w.cache.cell name).line := by
        refine horder.notMem_line ?_ ?_
        all_goals
          rw [hplace]
          obtain rfl | rfl := hfrom <;> simp [hne.symm]
      exact horder.update hline nofun nofun

/-- A chain of moves keeps the order. -/
lemma Place.orderly_of_chain {id : TaskId} {place place' : Place} {w w' : World σ}
    {events : List Event} {places : TaskId → Place}
    (h : Chain (Place.Move id) place w events place' w') (hplace : places id = place)
    (horder : ∀ name, (w.cache.cell name).Orderly name (fun j => j = id ∨ j ∈ w.woken) places)
    (name : String) :
    (w'.cache.cell name).Orderly name (fun j => j = id ∨ j ∈ w'.woken)
      (Function.update places id place') := by
  induction h generalizing places with
  | refl place w =>
    rw [← hplace, Function.update_eq_self]
    exact horder name
  | @head a b c w w₁ w' events later hfirst _ ih =>
    have hnext := ih (Function.update_self id b places) (hfirst.orderly hplace horder)
    rwa [Function.update_idem] at hnext

/-! ### Order in a system -/

/-- A blocked lookup that waits for a field has to wait: the field is not there, and it is another's
turn. -/
lemma Lookup.Blocked.of_waiting {id : TaskId} {cache : FieldCache} {lookup : Lookup}
    {looked name : String} (h : lookup.Blocked id looked cache)
    (hplace : lookup.place looked = .waiting name) :
    cache.cached? name = none ∧ (cache.cell name).holder? ≠ some id := by
  cases lookup with
  | fresh | asking reply => exact nomatch hplace
  | queued =>
    obtain rfl : looked = name := by simpa [Lookup.place] using hplace
    exact h

/-- A blocked task that waits in a line waits for an empty cell that is another's to fill. -/
lemma Task.Blocked.of_waiting {id : TaskId} {cache : FieldCache} {task : Task σ R α}
    {name : String} (h : task.Blocked id cache) (hplace : task.place = .waiting name) :
    cache.cached? name = none ∧ (cache.cell name).holder? ≠ some id := by
  cases task with
  | fetch p signal complete state =>
    cases state with
    | lookingUp d looked lookup rest => exact Lookup.Blocked.of_waiting h hplace
    | fresh | requesting jql reply => exact nomatch hplace
  | lookup looked complete lookup => exact Lookup.Blocked.of_waiting h hplace
  | fire signal result | await signal result => exact nomatch hplace

/-- A task that has not begun stands nowhere. -/
lemma Task.IsNew.place {task : Task σ R α} (h : task.IsNew) : task.place = .outside := by
  cases task with
  | fetch p signal complete state =>
    cases state with
    | fresh => rfl
    | lookingUp d name lookup rest | requesting jql reply => exact absurd h id
  | lookup name complete state =>
    cases state with
    | fresh => rfl
    | queued | asking reply => exact absurd h id
  | fire signal result | await signal result => rfl

namespace System

variable {providers : TaskId → Provider R} {s s' : System σ R α} {id : TaskId}

/-- Where a task stands. -/
def placeOf (s : System σ R α) (id : TaskId) : Place := s.slots[id]?.elim .outside Slot.place

/-- No task has begun, and no cell has a line.  What is in the cache may be there already. -/
structure NotBegun (s : System σ R α) : Prop where
  tasks : ∀ task, .running task ∈ s.slots → task.IsNew
  lines : ∀ name, (s.world.cache.cell name).line = []

/-- The order holds at all cells. -/
def Orderly (s : System σ R α) : Prop :=
  ∀ name, (s.world.cache.cell name).Orderly name (· ∈ s.world.woken) s.placeOf

/-- Where no task has begun, all of them stand nowhere. -/
lemma NotBegun.placeOf (h : s.NotBegun) (id : TaskId) : s.placeOf id = .outside := by
  rw [System.placeOf]
  cases hslot : s.slots[id]? with
  | none => rfl
  | some slot =>
    cases slot with
    | running task => exact (h.tasks task (List.mem_of_getElem? hslot)).place
    | finished result | dropped => rfl

/-- At the beginning every line is in order, since it is empty. -/
lemma NotBegun.orderly (h : s.NotBegun) : s.Orderly := by
  intro name
  constructor
  case nodup => rw [h.lines name]; exact List.nodup_nil
  case standing => rw [h.lines name]; exact fun _ hmem => absurd hmem List.not_mem_nil
  all_goals
    intro id
    rw [h.placeOf id]
    exact nofun

/-- A new task stands nowhere, and all others stay where they are. -/
lemma placeOf_spawn {task : Task σ R α} (isNew : task.IsNew) :
    placeOf { s with slots := s.slots ++ [.running task] } = s.placeOf := by
  funext id
  rw [placeOf, placeOf]
  obtain hlt | heq | hgt := lt_trichotomy id s.slots.length
  · rw [List.getElem?_append_left hlt]
  · subst heq
    rw [List.getElem?_concat_length, List.getElem?_eq_none (le_refl _)]
    exact isNew.place
  · rw [List.getElem?_eq_none (by simpa using hgt), List.getElem?_eq_none hgt.le]

/-- A turn changes the place of its task only. -/
lemma Turn.placeOf {provider : Provider R} {events : List Event} {slot : Slot σ R α}
    (h : Turn provider id s events slot s') :
    s'.placeOf = Function.update s.placeOf id slot.place := by
  funext other
  obtain rfl | hne := eq_or_ne other id
  · rw [Function.update_self, System.placeOf, h.getElem?_self]
    rfl
  · rw [Function.update_of_ne hne, System.placeOf, h.getElem?_of_ne hne.symm]
    rfl

/-- What a turn does at the cells. -/
lemma Turn.exists_place_chain {provider : Provider R} {events : List Event} {slot : Slot σ R α}
    (h : Turn provider id s events slot s') :
    ∃ w w', World.SameBut id s.world w ∧
      Chain (Place.Move id) (s.placeOf id) w events slot.place w' ∧
      (∀ name, slot.place = .waiting name →
        w'.cache.cached? name = none ∧ (w'.cache.cell name).holder? ≠ some id) ∧
      World.SameBut id w' s'.world := by
  obtain ⟨hslot, hbefore, hchain, hblocked, hafter, -⟩ := h
  rename_i task w w'
  have hplace : s.placeOf id = (Phase.slot (.running task)).place := by
    rw [System.placeOf, hslot]
    rfl
  refine ⟨w, w', hbefore, ?_, ?_, hafter⟩
  · rw [hplace]
    exact hchain.map Phase.place Task.Move.place
  · intro name hwaiting
    cases slot with
    | running left => exact (hblocked left rfl).of_waiting hwaiting
    | finished result | dropped => exact nomatch hwaiting

/-- When a task gets its turn, it counts as awake. -/
lemma Orderly.at_turn {w : World σ} (horder : s.Orderly) (h : World.SameBut id s.world w)
    (name : String) :
    (w.cache.cell name).Orderly name (fun j => j = id ∨ j ∈ w.woken) s.placeOf := by
  rw [h.cache]
  refine (horder name).mono fun other hwoken => ?_
  obtain rfl | hne := eq_or_ne other id
  · exact .inl rfl
  · exact .inr (h.woken other hwoken hne)

/-- A turn keeps the order.  The task itself may have lost its call to go on, since it is blocked
then. -/
lemma Turn.orderly {provider : Provider R} {events : List Event} {slot : Slot σ R α}
    (h : Turn provider id s events slot s') (horder : s.Orderly) : s'.Orderly := by
  obtain ⟨w, w', hbefore, hchain, hblocked, hafter⟩ := h.exists_place_chain
  intro name
  have hend := Place.orderly_of_chain hchain rfl (horder.at_turn hbefore) name
  rw [h.placeOf, hafter.cache]
  refine { hend with awake := ?_ }
  intro other hwaiting hgo
  obtain rfl | hne := eq_or_ne other id
  · rw [Function.update_self] at hwaiting
    obtain ⟨hvacant, hholder⟩ := hblocked name hwaiting
    exact absurd hgo (by simpa [not_or] using ⟨hvacant, hholder⟩)
  · obtain rfl | hwoken := hend.awake other hwaiting hgo
    · exact absurd rfl hne
    · exact hafter.woken other hwoken hne

/-- Every action keeps the order. -/
lemma Shows.orderly {action : Action σ R α} {entries : List Entry}
    (h : Shows providers s action entries) (horder : s.Orderly) :
    (s.act providers action).Orderly := by
  cases h with
  | spawn task isNew =>
    intro name
    rw [act, placeOf_spawn isNew]
    exact horder name
  | poll hturn => exact hturn.orderly horder
  | @drop id task hslot => exact (turn_of_drop (providers id) hslot).orderly horder
  | pollOver hover =>
    rw [act, poll_of_over hover]
    exact horder
  | dropOver hover =>
    rw [act, drop_of_over hover]
    exact horder
  | insert fields => exact FieldCache.orderly_insertAll horder fields
  | fire signal =>
    intro name
    exact (horder name).mono fun id hwoken => List.mem_append_left _ hwoken
  | host change => exact horder

/-- What is in order stays in order, whatever happens. -/
theorem History.orderly {actions : List (Action σ R α)} {entries : List Entry}
    (h : History providers s actions entries) (horder : s.Orderly) :
    (s.after providers actions).Orderly := by
  induction h with
  | nil s => exact horder
  | cons hfirst _ ih => exact ih (hfirst.orderly horder)

end System

end IssueQuery

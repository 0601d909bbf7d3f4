import IssueQuery.Proofs.Execution.Succession

/-!
# Known fields in the cache

Fields that are known from elsewhere go into the cache without a question to the server.
`Cell.Seeded` says what becomes of a cell then: what is cached stays, a cell that some task has the
right to fill is left to that task, and any other vacant cell takes the first field of its name.

`FieldCache.insertAll_seeds` says so of all cells and of every list of fields.  In the course of a
session the right to fill a cell is that of a task which is alive and asks the server, or is awake
to do so; `System.History.insert_seeds` says the same in these terms.
-/

namespace IssueQuery

/-- No other field of the name stands before it in the list. -/
def CustomField.IsFirstIn (field : CustomField) (fields : List CustomField) : Prop :=
  ∃ before after, fields = before ++ field :: after ∧ ∀ other ∈ before, other.name ≠ field.name

/-- What becomes of the cell of a name when known fields are inserted. -/
inductive Cell.Seeded (name : String) (fields : List CustomField) : Cell → Cell → Prop where
  /-- What is cached stays. -/
  | kept (field : CustomField) : Seeded name fields (.filled field) (.filled field)
  /-- A task has the right to fill the cell: the cell is left to it, with the whole line. -/
  | left {c : Cell} {id : TaskId} : c.holder? = some id → Seeded name fields c c
  /-- The cell is vacant and nobody's to fill. -/
  | stored {field : CustomField} :
    field.name = name → field.IsFirstIn fields → Seeded name fields (.vacant []) (.filled field)
  /-- There is no field of the name. -/
  | unlisted :
    (∀ field ∈ fields, field.name ≠ name) → Seeded name fields (.vacant []) (.vacant [])

namespace Cell

variable {name : String} {field : CustomField} {fields : List CustomField} {c c' : Cell}

/-- Nothing happens to a cell that is filled or somebody's to fill. -/
lemma seeded_self (h : c ≠ vacant []) : Seeded name fields c c := by
  cases c with
  | filled field => exact .kept field
  | vacant line =>
    cases line with
    | nil => exact absurd rfl h
    | cons head rest => exact .left rfl

/-- A cell that is filled or somebody's to fill is left as it is. -/
lemma Seeded.eq_self (h : Seeded name fields c c') (hne : c ≠ vacant []) : c' = c := by
  cases h with
  | kept field => rfl
  | left hholder => rfl
  | stored _ _ | unlisted _ => exact absurd rfl hne

/-- What goes into a cell that is vacant and nobody's to fill is what a search for the name
finds. -/
lemma Seeded.value?_eq_find? (h : Seeded name fields (vacant []) c) :
    c.value? = fields.find? (·.name = name) := by
  symm
  cases h with
  | left hholder => cases hholder
  | stored hname hfirst =>
    obtain ⟨before, after, rfl, hbefore⟩ := hfirst
    rw [value?, List.find?_eq_some_iff_append]
    refine ⟨by simpa using hname, before, after, rfl, fun other hother => ?_⟩
    simpa [hname] using hbefore other hother
  | unlisted hnone =>
    rw [value?, List.find?_eq_none]
    exact fun field hfield => by simpa using hnone field hfield

/-- A field of another name in front makes no difference. -/
lemma Seeded.cons_of_ne (h : Seeded name fields c c') (hne : field.name ≠ name) :
    Seeded name (field :: fields) c c' := by
  cases h with
  | kept field => exact .kept field
  | left hholder => exact .left hholder
  | stored hname hfirst =>
    obtain ⟨before, after, rfl, hbefore⟩ := hfirst
    exact .stored hname
      ⟨field :: before, after, rfl, List.forall_mem_cons.mpr ⟨hname ▸ hne, hbefore⟩⟩
  | unlisted hnone => exact .unlisted (List.forall_mem_cons.mpr ⟨hne, hnone⟩)

end Cell

namespace FieldCache

variable {cache : FieldCache} {name : String} {field : CustomField} {fields : List CustomField}

/-- A field goes into a cell that is vacant and nobody's to fill. -/
lemma insert_of_vacant (h : cache.cell field.name = .vacant []) :
    cache.insert field = (cache.fill field.name field, true) := by
  rw [insert, h]

/-- A field goes into no other cell. -/
lemma insert_of_ne (h : cache.cell field.name ≠ .vacant []) :
    cache.insert field = (cache, false) := by
  rw [insert]
  split
  next hvacant => exact absurd hvacant h
  next => rfl

/-- The fields after the first one go into the cache that it leaves, whatever became of it. -/
lemma insertAll_cons (cache : FieldCache) (field : CustomField) (fields : List CustomField) :
    cache.insertAll (field :: fields) = (((cache.insert field).1.insertAll fields).1,
      (cache.insert field).2 || ((cache.insert field).1.insertAll fields).2) := rfl

/-- What inserting fields makes of each cell. -/
lemma seeded_insertAll (cache : FieldCache) (fields : List CustomField) (name : String) :
    Cell.Seeded name fields (cache.cell name) ((cache.insertAll fields).1.cell name) := by
  induction fields generalizing cache with
  | nil =>
    by_cases hvacant : cache.cell name = .vacant []
    · rw [insertAll, hvacant]
      exact .unlisted (List.forall_mem_nil _)
    · exact Cell.seeded_self hvacant
  | cons field fields ih =>
    have hrest := ih (cache.insert field).1
    rw [insertAll_cons]
    by_cases hvacant : cache.cell field.name = .vacant []
    · rw [insert_of_vacant hvacant] at hrest ⊢
      obtain rfl | hne := eq_or_ne name field.name
      · -- The cell is filled now, and the rest of the list leaves it so.
        rw [cell_fill_self] at hrest
        rw [hvacant, hrest.eq_self (by simp)]
        exact .stored rfl ⟨[], fields, rfl, List.forall_mem_nil _⟩
      · rw [cell_fill_of_ne hne] at hrest
        exact hrest.cons_of_ne hne.symm
    · rw [insert_of_ne hvacant] at hrest ⊢
      obtain rfl | hne := eq_or_ne name field.name
      · rw [hrest.eq_self hvacant]
        exact Cell.seeded_self hvacant
      · exact hrest.cons_of_ne hne.symm

/-- The entries of other names are not touched. -/
lemma get?_insertAll_of_ne (h : ∀ field ∈ fields, field.name ≠ name) :
    (cache.insertAll fields).1.cells.get? name = cache.cells.get? name := by
  induction fields generalizing cache with
  | nil => rfl
  | cons field fields ih =>
    obtain ⟨hne, hrest⟩ := List.forall_mem_cons.mp h
    rw [insertAll_cons, ih hrest]
    by_cases hvacant : cache.cell field.name = .vacant []
    · rw [insert_of_vacant hvacant]
      exact Table.get?_set_of_ne _ _ hne.symm
    · rw [insert_of_ne hvacant]

/-- Something is new if one of the fields finds its cell vacant and nobody's to fill. -/
lemma insertAll_snd_iff :
    (cache.insertAll fields).2 = true ↔ ∃ field ∈ fields, cache.cell field.name = .vacant [] := by
  induction fields generalizing cache with
  | nil => simp [insertAll]
  | cons field fields ih =>
    rw [insertAll_cons, Bool.or_eq_true, ih, List.exists_mem_cons_iff]
    by_cases hvacant : cache.cell field.name = .vacant []
    · simp [insert_of_vacant hvacant, hvacant]
    · simp [insert_of_ne hvacant, hvacant]

/-- A vacant cell that is nobody's to fill has the first listed field of its name afterwards. -/
lemma cached?_insertAll_of_vacant (h : cache.cell name = .vacant []) :
    (cache.insertAll fields).1.cached? name = fields.find? (·.name = name) := by
  have hseeded := cache.seeded_insertAll fields name
  rw [h] at hseeded
  exact hseeded.value?_eq_find?

/-- A listed field whose cell is vacant and nobody's to fill brings a value into it. -/
lemma exists_cached?_insertAll (hfield : field ∈ fields)
    (hvacant : cache.cell field.name = .vacant []) :
    ∃ stored, (cache.insertAll fields).1.cached? field.name = some stored := by
  rw [cached?_insertAll_of_vacant hvacant]
  exact Option.isSome_iff_exists.mp (List.find?_isSome.mpr ⟨field, hfield, by simp⟩)

/-- Only a listed field whose cell is vacant and nobody's to fill brings a new value. -/
lemma exists_vacant_of_cached?_insertAll {stored : CustomField}
    (hbefore : cache.cached? name = none)
    (hafter : (cache.insertAll fields).1.cached? name = some stored) :
    ∃ field ∈ fields, cache.cell field.name = .vacant [] := by
  by_cases hvacant : cache.cell name = .vacant []
  · rw [cached?_insertAll_of_vacant hvacant] at hafter
    have hname : stored.name = name := by simpa using List.find?_some hafter
    exact ⟨stored, List.mem_of_find?_eq_some hafter, hname ▸ hvacant⟩
  · rw [cached?, (cache.seeded_insertAll fields name).eq_self hvacant] at hafter
    cases hbefore.symm.trans hafter

/-- To insert fields seeds every cell and touches no other name.  The answer says whether any value
was stored that was not there before. -/
theorem insertAll_seeds (cache : FieldCache) (fields : List CustomField) :
    (∀ name, Cell.Seeded name fields (cache.cell name) ((cache.insertAll fields).1.cell name)) ∧
    (∀ name, (∀ field ∈ fields, field.name ≠ name) →
      (cache.insertAll fields).1.cells.get? name = cache.cells.get? name) ∧
    ((cache.insertAll fields).2 = true ↔ ∃ name stored, cache.cached? name = none ∧
      (cache.insertAll fields).1.cached? name = some stored) := by
  refine ⟨cache.seeded_insertAll fields, fun name => get?_insertAll_of_ne, ?_⟩
  rw [insertAll_snd_iff]
  constructor
  · rintro ⟨field, hfield, hvacant⟩
    obtain ⟨stored, hstored⟩ := exists_cached?_insertAll hfield hvacant
    exact ⟨field.name, stored, by rw [cached?, hvacant]; rfl, hstored⟩
  · rintro ⟨name, stored, hbefore, hafter⟩
    exact exists_vacant_of_cached?_insertAll hbefore hafter

end FieldCache

namespace System

variable {σ R α : Type} {providers : TaskId → Provider R} {s : System σ R α} {name : String}

/-- A cell with a line is somebody's to fill. -/
lemma Orderly.cell_eq_of_nobody (horder : s.Orderly) (hcached : s.world.cache.cached? name = none)
    (hnobody : ∀ id, ¬ s.HasRight providers name id) :
    s.world.cache.cell name = .vacant [] := by
  rw [FieldCache.cached?] at hcached
  cases hcell : s.world.cache.cell name with
  | filled field =>
    rw [hcell] at hcached
    cases hcached
  | vacant line =>
    cases line with
    | nil => rfl
    | cons head rest => exact absurd (horder.hasRight providers (by rw [hcell]; rfl)) (hnobody head)

/-- In every history of a system that has not begun, known fields are inserted beside the tasks: a
name that is cached keeps its field; a name that some task has the right to ask for, be it that it
asks already or that it was just given the right, is left to that task and those in line after it;
and a name that nobody has the right to ask for gets the first field of the list that has the
name. -/
theorem History.insert_seeds {actions : List (Action σ R α)} {entries : List Entry}
    (hbegin : s.NotBegun) (h : History providers s actions entries) (fields : List CustomField)
    (name : String) :
    let s' := s.after providers actions
    let cache' := (s'.act providers (.insert fields)).world.cache
    (∀ field, s'.world.cache.cached? name = some field → cache'.cached? name = some field) ∧
    (∀ id, s'.HasRight providers name id → cache'.cell name = s'.world.cache.cell name) ∧
    (s'.world.cache.cached? name = none → (∀ id, ¬ s'.HasRight providers name id) →
      cache'.cached? name = fields.find? (·.name = name)) := by
  have hseeded := (s.after providers actions).world.cache.seeded_insertAll fields name
  refine ⟨fun field hcached => ?_, fun id hright => ?_, fun hcached hnobody => ?_⟩
  · have hsame := hseeded.eq_self fun hvacant => by
      rw [FieldCache.cached?, hvacant] at hcached
      cases hcached
    rw [FieldCache.cached?, act, hsame]
    exact hcached
  · refine hseeded.eq_self fun hvacant => ?_
    have hholder := hright.holder
    rw [hvacant] at hholder
    cases hholder
  · have hvacant := (h.orderly hbegin.orderly).cell_eq_of_nobody hcached hnobody
    exact FieldCache.cached?_insertAll_of_vacant hvacant

end System

end IssueQuery

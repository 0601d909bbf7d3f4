/-!
# Tables

Finite tables from names to values.  Setting a name replaces what it had before, so every name has
at most one value, and the size of a table is the number of its names.
-/

namespace IssueQuery

/-- A list of entries, no two of them under one name. -/
structure Table (α : Type) where
  entries : List (String × α)
  nodup : (entries.map Prod.fst).Nodup

namespace Table

variable {α : Type}

/-- The table without entries. -/
def empty : Table α := ⟨[], List.nodup_nil⟩

instance : Inhabited (Table α) := ⟨empty⟩

/-- The value of a name. -/
def get? (t : Table α) (name : String) : Option α := t.entries.lookup name

/-- Gives a name a value. -/
def set (t : Table α) (name : String) (a : α) : Table α where
  entries := (name, a) :: t.entries.filter (·.1 ≠ name)
  nodup := by
    rw [List.map_cons, List.nodup_cons]
    exact ⟨by simp, t.nodup.sublist (List.filter_sublist.map _)⟩

/-- The number of names. -/
def size (t : Table α) : Nat := t.entries.length

/-- The empty table has no entries. -/
@[simp] theorem get?_empty (name : String) : (empty : Table α).get? name = none := rfl

/-- The empty table has size zero. -/
@[simp] theorem size_empty : (empty : Table α).size = 0 := rfl

/-- An entry that was set is found again. -/
@[simp] theorem get?_set_self (t : Table α) (name : String) (a : α) :
    (t.set name a).get? name = some a := by
  simp [get?, set]

/-- To set the entry of one name leaves the entries of all others. -/
theorem get?_set_of_ne (t : Table α) {name other : String} (a : α) (h : other ≠ name) :
    (t.set name a).get? other = t.get? other := by
  simp only [get?, set]
  rw [List.lookup_cons, beq_false_of_ne h]
  induction t.entries with
  | nil => rfl
  | cons e es ih =>
    by_cases he : e.1 = name
    · simp only [List.filter_cons, he, ne_eq, not_true_eq_false, decide_false]
      rw [List.lookup_cons, he, beq_false_of_ne h]
      exact ih
    · simp only [List.filter_cons, he, ne_eq, not_false_eq_true, decide_true, if_true]
      rw [List.lookup_cons, List.lookup_cons]
      split <;> simp_all

end Table

end IssueQuery

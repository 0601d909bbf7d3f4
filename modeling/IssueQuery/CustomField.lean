import IssueQuery.Table

/-!
# Custom fields and their cache

The cache keeps what the server has told about custom fields, in one cell for each name.  A cell
that is not filled has a line of tasks that want it filled.  The task at the head of the line has
the right to ask the server; when it gives up, the right passes to the next in line, and when it
succeeds, all in line share the answer.
-/

namespace IssueQuery

/-- A custom field as the server knows it. -/
structure CustomField where
  id : String
  name : String
  customType : Option String
  deriving DecidableEq

/-- Tasks are told apart by their number. -/
abbrev TaskId := Nat

/-- The place of a field in the cache: filled for good, or vacant with the tasks that want it
filled, of which the first has the right to do so. -/
inductive Cell where
  | filled (field : CustomField)
  | vacant (line : List TaskId)
  deriving DecidableEq

namespace Cell

/-- The field in a cell. -/
def value? : Cell → Option CustomField
  | filled field => some field
  | vacant _ => none

/-- The tasks that want the cell filled. -/
def line : Cell → List TaskId
  | filled _ => []
  | vacant tasks => tasks

/-- The task that has the right to fill the cell. -/
def holder? (c : Cell) : Option TaskId := c.line.head?

end Cell

/-- The cells that were ever wanted or filled. -/
structure FieldCache where
  cells : Table Cell

namespace FieldCache

/-- The cache in which no name was ever wanted. -/
def empty : FieldCache := ⟨.empty⟩

/-- The cell of a name; a name that was never asked for is vacant. -/
def cell (cache : FieldCache) (name : String) : Cell := (cache.cells.get? name).getD (.vacant [])

/-- Puts a cell in the place of a name. -/
def setCell (cache : FieldCache) (name : String) (c : Cell) : FieldCache :=
  ⟨cache.cells.set name c⟩

/-- The field that is cached under a name. -/
def cached? (cache : FieldCache) (name : String) : Option CustomField := (cache.cell name).value?

/-- The number of names that ever had a cell. -/
def size (cache : FieldCache) : Nat := cache.cells.size

/-- The cache for a reader. -/
def debugText (cache : FieldCache) : String :=
  "CustomFieldRegistry \x7b cached: " ++ toString cache.size ++ " \x7d"

/-- Puts a task at the end of the line. -/
def enter (cache : FieldCache) (name : String) (task : TaskId) : FieldCache :=
  match cache.cell name with
  | .filled _ => cache
  | .vacant line => cache.setCell name (.vacant (line ++ [task]))

/-- Takes a task out of the line. -/
def leave (cache : FieldCache) (name : String) (task : TaskId) : FieldCache :=
  match cache.cell name with
  | .filled _ => cache
  | .vacant line => cache.setCell name (.vacant (line.erase task))

/-- Fills a cell. -/
def fill (cache : FieldCache) (name : String) (field : CustomField) : FieldCache :=
  cache.setCell name (.filled field)

/-- Fills the cell of a known field, unless it is filled or somebody is about to fill it; and
whether it did. -/
def insert (cache : FieldCache) (field : CustomField) : FieldCache × Bool :=
  match cache.cell field.name with
  | .vacant [] => (cache.fill field.name field, true)
  | _ => (cache, false)

/-- Inserts all fields, from the first to the last; and whether any was new. -/
def insertAll (cache : FieldCache) : List CustomField → FieldCache × Bool
  | [] => (cache, false)
  | field :: fields =>
    let (cache, added) := cache.insert field
    let (cache, more) := cache.insertAll fields
    (cache, added || more)

/-- A cell that was set is what it was set to. -/
@[simp] theorem cell_setCell_self (cache : FieldCache) (name : String) (c : Cell) :
    (cache.setCell name c).cell name = c := by
  simp [cell, setCell]

/-- To set the cell of one name leaves the cells of all others. -/
theorem cell_setCell_of_ne (cache : FieldCache) {name other : String} (c : Cell)
    (h : other ≠ name) : (cache.setCell name c).cell other = cache.cell other := by
  simp [cell, setCell, Table.get?_set_of_ne _ c h]

end FieldCache

end IssueQuery

import IssueQuery.Error
import IssueQuery.Table

/-!
# Fields

A query names a field of the record either by a member, whose name and way of comparing are
registered in a `FieldRegistry`, or by a text that is only known when the query is compiled.
`FieldRegistry.resolve` finds the field that an expression names.
-/

namespace IssueQuery

/-- How equality on a field is asked for: by `=` or by `~`. -/
inductive EqualityPolicy where
  | equals
  | contains
  deriving DecidableEq

instance : Inhabited EqualityPolicy := ⟨.equals⟩

/-- How a member of the record is called in a query and how it is compared. -/
structure FieldMapping where
  logicalName : String
  queryName : String
  policy : EqualityPolicy
  deriving DecidableEq

/-- The mapping of a member that keeps its name and is compared by equality. -/
def FieldMapping.verbatim (name : String) : FieldMapping := ⟨name, name, .equals⟩

/-- The registered members, each with its name in queries and its policy. -/
structure FieldRegistry where
  rules : Table (String × EqualityPolicy)

namespace FieldRegistry

/-- The registry without members. -/
def empty : FieldRegistry := ⟨.empty⟩

/-- Registers a member; an earlier registration of the same member is replaced. -/
def register (registry : FieldRegistry) (name queryName : String) (policy : EqualityPolicy) :
    FieldRegistry :=
  ⟨registry.rules.set name (queryName, policy)⟩

/-- Registers a member that keeps its name and is compared by containment. -/
def registerContains (registry : FieldRegistry) (name : String) : FieldRegistry :=
  registry.register name name .contains

/-- Registers a member that has another name in queries. -/
def registerRenamed (registry : FieldRegistry) (name queryName : String) : FieldRegistry :=
  registry.register name queryName .equals

/-- The mapping of a member; members that are not registered keep their name. -/
def mapping (registry : FieldRegistry) (name : String) : FieldMapping :=
  match registry.rules.get? name with
  | some (queryName, policy) => ⟨name, queryName, policy⟩
  | none => .verbatim name

/-- The number of registered members. -/
def size (registry : FieldRegistry) : Nat := registry.rules.size

/-- The members of an issue that are not compared by equality under their own name. -/
def issue : FieldRegistry :=
  empty
  |>.registerContains "Summary"
  |>.registerContains "Description"
  |>.registerContains "Environment"
  |>.registerRenamed "Components" "component"
  |>.registerRenamed "AffectsVersions" "AffectedVersion"
  |>.registerRenamed "FixVersions" "FixVersion"

end FieldRegistry

/-- A field as a query names it. -/
inductive FieldRef where
  /-- A member, by its name in queries. -/
  | member (name : String)
  /-- A field that was looked up by its name. -/
  | dynamic (name : String)
  deriving DecidableEq

namespace FieldRef

/-- The text of a field in a query; a name that was looked up stands in quotes. -/
def text : FieldRef → String
  | member name => name
  | dynamic name => quoted name

/-- The name of a field that was looked up. -/
def dynamicName? : FieldRef → Option String
  | member _ => none
  | dynamic name => some name

end FieldRef

/-- What the left side of a comparison refers to. -/
inductive ResolvedField where
  | member (mapping : FieldMapping)
  | dynamic (name : String)
  deriving DecidableEq

/-- The field of the query. -/
def ResolvedField.reference : ResolvedField → FieldRef
  | member mapping => .member mapping.queryName
  | dynamic name => .dynamic name

/-- The name that a value gives to a field: its text, or the text of a literal. -/
def Value.fieldName (v : Value) : String := v.text?.getD v.jql

/-- The field that an expression refers to, under conversions.  The name of an indexed field must
be a constant already; `operator` is the name of the operation that needs the field. -/
def FieldRegistry.resolve {σ : Type} (registry : FieldRegistry) (operator : String) (e : Expr σ) :
    Except Error ResolvedField :=
  match e.withoutConversions with
  | .field name => .ok (.member (registry.mapping name))
  | .indexer (.constant v) => .ok (.dynamic v.fieldName)
  | _ => .error (.unsupportedField operator)

end IssueQuery

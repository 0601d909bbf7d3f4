import IssueQuery.Context
import IssueQuery.Directive
import IssueQuery.Expr.Folding

/-!
# Compilation of pipelines

A pipeline is compiled in two passes.  The first goes from the stage declared last to the one
declared first: it resolves the ordering keys, keeps the last declared limit and start, and refuses
a local filter below a stage that the server carries out, since the server cannot see what the
filter leaves.  The second folds and compiles the conditions in the order of their declaration.
Nothing is compiled in part: the first failure is the result.

* `field > c`, `field >= c`, `field < c` and `field <= c` compare with a literal other than null.
* `field == c` asks for null or for an empty field by keyword, for an exact text by `=`, and for
  any other literal by the operator that the member is registered with.
* A field that is looked up by name is compared with plain text by `~` and otherwise by `=`.
* `and` and `or` join two such conditions.
-/

namespace IssueQuery

variable {σ R : Type}

/-- The literal on the right side of a comparison, under conversions. -/
def Expr.literalOperand (op : BinaryOp) (e : Expr σ) : Except Error Value :=
  match e.withoutConversions with
  | .constant v => .ok v
  | _ => .error (.nonConstantOperand op)

namespace Comparison

/-- The comparison of a field by equality, or by its opposite. -/
def ofEquality (positive : Bool) (field : ResolvedField) (v : Value) : Comparison :=
  match field with
  | .member mapping =>
    if v.isNull then ⟨field.reference, if positive then .is else .isNot, .null⟩
    else if v.isEmptyText then ⟨field.reference, if positive then .is else .isNot, .empty⟩
    else
      let policy := if v.type = .exact then .equals else mapping.policy
      ⟨field.reference, .equality policy positive, .literal v⟩
  | .dynamic _ =>
    let policy := if v.type = .text then .contains else .equals
    ⟨field.reference, .equality policy positive, .literal v⟩

/-- The comparison of a field by order. -/
def ofOrdering (op : BinaryOp) (operator : Operator) (field : ResolvedField) (v : Value) :
    Except Error Comparison :=
  if v.isNull then .error (.nullComparison field.reference.text op)
  else .ok ⟨field.reference, operator, .literal v⟩

/-- The comparison that an operator asks for, if it compares. -/
def ofOperator? (op : BinaryOp) : Option (ResolvedField → Value → Except Error Comparison) :=
  match op with
  | .equal => some fun field v => .ok (ofEquality true field v)
  | .notEqual => some fun field v => .ok (ofEquality false field v)
  | .greaterThan => some (ofOrdering op .greaterThan)
  | .greaterThanOrEqual => some (ofOrdering op .greaterThanOrEquals)
  | .lessThan => some (ofOrdering op .lessThan)
  | .lessThanOrEqual => some (ofOrdering op .lessThanOrEquals)
  | _ => none

/-- The comparison of two expressions.  First the field is resolved, then the literal. -/
def ofOperands (registry : FieldRegistry) (op : BinaryOp) (left right : Expr σ) :
    Except Error Comparison :=
  match ofOperator? op with
  | none => .error (.notSupported op.name)
  | some make => do
    let field ← registry.resolve op.name left
    let v ← right.literalOperand op
    make field v

end Comparison

/-- The predicate that a folded condition stands for. -/
def Predicate.ofExpr (registry : FieldRegistry) : Expr σ → Except Error Predicate
  | .binary .andAlso left right => do
    let l ← ofExpr registry left
    let r ← ofExpr registry right
    return .and l r
  | .binary .orElse left right => do
    let l ← ofExpr registry left
    let r ← ofExpr registry right
    return .or l r
  | .binary op left right => .comparison <$> Comparison.ofOperands registry op left right
  | e => .error (.notSupported e.kind.name)

/-- The predicate of a condition, whose closed parts are folded first. -/
def Expr.toPredicate (registry : FieldRegistry) (condition : Expr σ) :
    Compilation σ Predicate := do
  let folded ← Compilation.ofEvaluation condition.fold
  liftExcept (Predicate.ofExpr registry folded)

/-- The field of an ordering key, under conversions.  A member is ordered by under its own name, and
an indexed field by the name that its key folds to; `stage` is the name of the stage. -/
def Expr.toOrderField (stage : String) (key : Expr σ) : Compilation σ FieldRef :=
  match key.withoutConversions with
  | .field name => pure (.member name)
  | .indexer name => do
    match ← Compilation.ofEvaluation name.fold with
    | .constant v => return .dynamic v.fieldName
    | _ => throw (.unsupportedField stage)
  | _ => throw (.unsupportedField stage)

/-- What the first pass has collected.  Lists are in the order of declaration. -/
structure Draft (σ : Type) where
  conditions : List (Expr σ) := []
  orderClauses : List OrderClause := []
  maxResults : Option UInt32 := none
  startAt : Option UInt32 := none
  /-- The name of the stage passed last that the server carries out. -/
  above : Option String := none

namespace Draft

/-- Takes up the next stage, which was declared before all that were taken up already. -/
def visit (d : Draft σ) (stage : Stage σ R) : Compilation σ (Draft σ) :=
  match stage with
  | .filter condition =>
    return { d with conditions := condition :: d.conditions, above := some stage.name }
  | .order key direction _ => do
    let field ← key.toOrderField stage.name
    return { d with orderClauses := ⟨field, direction⟩ :: d.orderClauses, above := some stage.name }
  | .take count =>
    match d.maxResults with
    | none => return { d with maxResults := some count, above := some stage.name }
    | some kept => do
      Compilation.note (.shadowedTake kept count)
      return { d with above := some stage.name }
  | .skip count =>
    match d.startAt with
    | none => return { d with startAt := some count, above := some stage.name }
    | some kept => do
      Compilation.note (.shadowedSkip kept count)
      return { d with above := some stage.name }
  | .localFilter _ =>
    match d.above with
    | none => return d
    | some name => throw (.notSupported ("LocalWhere followed by " ++ name))

end Draft

namespace Pipeline

/-- The pipeline in the terms of the query language. -/
def compile (registry : FieldRegistry) (p : Pipeline σ R) : Compilation σ CompiledQuery := do
  let draft ← p.newestFirst.foldlM Draft.visit {}
  let filters ← draft.conditions.mapM (Expr.toPredicate registry)
  return {
    filters
    orderClauses := draft.orderClauses
    maxResults := draft.maxResults
    startAt := draft.startAt }

/-- What a request for the records of the pipeline asks for. -/
def toDirective (registry : FieldRegistry) (p : Pipeline σ R) : Compilation σ Directive :=
  return (← p.compile registry).directive

end Pipeline

end IssueQuery

import IssueQuery.Proofs.Compilation.CustomFields
import IssueQuery.Proofs.Compilation.Leaves
import IssueQuery.Proofs.Compilation.Lockstep

/-!
# The reach of a registration

A registry says how a member is called in queries and how equality on it is asked for.  Two
registries compile the same pipelines, and their queries differ in nothing but that
(`Predicate.Reregistered`): orderings, paging, the fields that are looked up and the operands are
the same, and so is every operator that the policy of a member does not choose.  An error may differ
where it names the field that null was compared with.

Only the members on the left sides of comparisons are ever asked for.  Where two registries agree on
these, they give the same outcome.  `Pipeline.compile_reregistered` says both.
-/

namespace IssueQuery

variable {σ R : Type} (registry registry' : FieldRegistry)

/-- The same field under both registries. -/
inductive ResolvedField.Reregistered : ResolvedField → ResolvedField → Prop where
  | member (name : String) :
    Reregistered (.member (registry.mapping name)) (.member (registry'.mapping name))
  | dynamic (name : String) : Reregistered (.dynamic name) (.dynamic name)

/-- The same comparison under both registries.  The names of a member may differ; the operators may
only where equality with a literal is asked for that is neither null nor empty nor an exact text. -/
inductive Comparison.Reregistered : Comparison → Comparison → Prop where
  | dynamic (name : String) (operator : Operator) (operand : Operand) :
    Reregistered ⟨.dynamic name, operator, operand⟩ ⟨.dynamic name, operator, operand⟩
  | member (name : String) (operator : Operator) (operand : Operand) :
    Reregistered ⟨.member (registry.mapping name).queryName, operator, operand⟩
      ⟨.member (registry'.mapping name).queryName, operator, operand⟩
  | policy (name : String) (positive : Bool) {v : Value} :
    v.isNull = false → v.isEmptyText = false → v.type ≠ .exact →
      Reregistered
        ⟨.member (registry.mapping name).queryName,
          .equality (registry.mapping name).policy positive, .literal v⟩
        ⟨.member (registry'.mapping name).queryName,
          .equality (registry'.mapping name).policy positive, .literal v⟩

/-- The same tree with the same comparisons under both registries. -/
inductive Predicate.Reregistered : Predicate → Predicate → Prop where
  | comparison {c c' : Comparison} : c.Reregistered registry registry' c' →
      Reregistered (.comparison c) (.comparison c')
  | and {l l' r r' : Predicate} : Reregistered l l' → Reregistered r r' →
      Reregistered (.and l r) (.and l' r')
  | or {l l' r r' : Predicate} : Reregistered l l' → Reregistered r r' →
      Reregistered (.or l r) (.or l' r')

/-- The same error under both registries: only where null is compared by order is the member called
by its name in queries. -/
inductive Error.Reregistered : Error → Error → Prop where
  | same (error : Error) : Reregistered error error
  | null (name : String) (op : BinaryOp) :
    Reregistered (.nullComparison (registry.mapping name).queryName op)
      (.nullComparison (registry'.mapping name).queryName op)

/-! ### Translation -/

/-- Both registries resolve a field or refuse it. -/
lemma FieldRegistry.alike_resolve_reregistered (operator : String) (e : Expr σ) :
    Alike (ResolvedField.Reregistered registry registry') (Error.Reregistered registry registry')
      (registry.resolve operator e) (registry'.resolve operator e) := by
  simp only [resolve]
  cases e.withoutConversions with
  | field name => exact .ok (.member name)
  | indexer key =>
    cases key with
    | constant v => exact .ok (.dynamic v.fieldName)
    | _ => exact .error (.same _)
  | _ => exact .error (.same _)

namespace ResolvedField.Reregistered

variable {registry registry'} {field field' : ResolvedField}

/-- A policy chooses the operator only for a literal that is neither null nor empty nor an exact
text. -/
lemma ofEquality (h : field.Reregistered registry registry' field') (positive : Bool) (v : Value) :
    (Comparison.ofEquality positive field v).Reregistered registry registry'
      (Comparison.ofEquality positive field' v) := by
  cases h with
  | dynamic name => exact .dynamic name _ _
  | member name =>
    simp only [Comparison.ofEquality]
    cases hnull : v.isNull with
    | true => exact .member name _ _
    | false =>
      cases hempty : v.isEmptyText with
      | true => exact .member name _ _
      | false =>
        by_cases hexact : v.type = .exact
        · simp only [if_pos hexact]
          exact .member name _ _
        · simp only [if_neg hexact]
          exact .policy name positive hnull hempty hexact

/-- An order is asked for by the same operator, and refused alike for null; the name of the member
apart. -/
lemma ofOrdering (h : field.Reregistered registry registry' field') (op : BinaryOp)
    (operator : Operator) (v : Value) :
    Alike (Comparison.Reregistered registry registry') (Error.Reregistered registry registry')
      (Comparison.ofOrdering op operator field v) (Comparison.ofOrdering op operator field' v) := by
  simp only [Comparison.ofOrdering]
  split_ifs with hnull
  · cases h with
    | member name => exact .error (.null name op)
    | dynamic name => exact .error (.same _)
  · cases h with
    | member name => exact .ok (.member name _ _)
    | dynamic name => exact .ok (.dynamic name _ _)

end ResolvedField.Reregistered

/-- Operands are compared alike under both registries. -/
lemma Comparison.alike_ofOperands_reregistered (op : BinaryOp) (left right : Expr σ) :
    Alike (Comparison.Reregistered registry registry') (Error.Reregistered registry registry')
      (ofOperands registry op left right) (ofOperands registry' op left right) := by
  simp only [ofOperands]
  cases hmake : ofOperator? op with
  | none => exact .error (.same _)
  | some make =>
    refine (registry.alike_resolve_reregistered registry' op.name left).bind
      fun field field' hfield => ?_
    refine .bind_same .same fun v => ?_
    rcases eq_of_ofOperator? hmake with ⟨positive, rfl⟩ | ⟨operator, rfl⟩
    · exact .ok (hfield.ofEquality positive v)
    · exact hfield.ofOrdering op operator v

/-- A folded condition is translated alike under both registries. -/
lemma Predicate.alike_ofExpr_reregistered (e : Expr σ) :
    Alike (Predicate.Reregistered registry registry') (Error.Reregistered registry registry')
      (ofExpr registry e) (ofExpr registry' e) := by
  induction e using Expr.induction_on_leaves with
  | leaf e hleaf =>
    cases e with
    | binary op left right =>
      rw [ofExpr_binary hleaf.isConnective_eq, ofExpr_binary hleaf.isConnective_eq]
      exact (Comparison.alike_ofOperands_reregistered registry registry' op left right).map
        fun _ _ hc => .comparison hc
    | _ => exact .error (.same _)
  | joined op left right hop ihl ihr =>
    rw [ofExpr_joined hop, ofExpr_joined hop]
    refine ihl.bind fun l l' hl => ihr.bind fun r r' hr => .ok ?_
    rcases ofConnective_cases op with hop | hop
    · rw [hop]
      exact .and hl hr
    · rw [hop]
      exact .or hl hr

/-- A condition is compiled in step under both registries. -/
lemma Expr.inStep_toPredicate_reregistered (condition : Expr σ) :
    InStep (Predicate.Reregistered registry registry') (Error.Reregistered registry registry')
      (condition.toPredicate registry) (condition.toPredicate registry') := by
  refine .bind_same .same fun folded => ?_
  exact .liftExcept (Predicate.alike_ofExpr_reregistered registry registry' folded)

variable {registry registry'}

/-- The same comparison looks up the same field, if any. -/
lemma Comparison.Reregistered.dynamicName?_eq {c c' : Comparison}
    (h : c.Reregistered registry registry' c') : c'.field.dynamicName? = c.field.dynamicName? := by
  cases h <;> rfl

/-- Predicates under both registries look up the same fields. -/
lemma Predicate.Reregistered.dynamicNames_eq {predicate predicate' : Predicate}
    (h : predicate.Reregistered registry registry' predicate') :
    predicate'.dynamicNames = predicate.dynamicNames := by
  induction h with
  | comparison hc =>
    simp only [dynamicNames, comparisons, List.filterMap_cons, hc.dynamicName?_eq]
  | and _ _ ihl ihr => rw [dynamicNames_and, dynamicNames_and, ihl, ihr]
  | or _ _ ihl ihr => rw [dynamicNames_or, dynamicNames_or, ihl, ihr]

/-! ### Members that are compared -/

namespace Expr

/-- The condition compares the member: one of its leaves is a comparison with the member on its left
side, under conversions. -/
def ComparesMember (condition : Expr σ) (name : String) : Prop :=
  ∃ op left right, binary op left right ∈ condition.leaves ∧ op.isComparison = true ∧
    left.withoutConversions = field name

/-- Joined conditions compare a member when one of them does. -/
lemma comparesMember_joined_iff {op : BinaryOp} {left right : Expr σ} {name : String}
    (hop : op.isConnective = true) :
    (binary op left right).ComparesMember name ↔
      left.ComparesMember name ∨ right.ComparesMember name := by
  simp only [ComparesMember, leaves_joined hop, List.mem_append, or_and_right, exists_or]

/-- What folds to a member, under conversions, is the member. -/
lemma withoutConversions_of_outcome_fold {e e' : Expr σ} {s s' : σ} {name : String}
    (h : outcome e.fold s = (.ok e', s')) (hname : e'.withoutConversions = field name) :
    e.withoutConversions = field name := by
  induction e using withoutConversions.induct generalizing e' s s' with
  | case1 inner ih =>
    have hopen : inner.dependsOnRecord = true := by
      have hsame := (isFolded_of_outcome_fold _ h).2
      rw [← dependsOnRecord_withoutConversions, hname] at hsame
      exact hsame.symm
    rw [fold_convert_of_open hopen, outcome_map_eq_ok_iff] at h
    obtain ⟨inner', hinner, rfl⟩ := h
    exact ih hinner hname
  | case2 e hconvert =>
    rcases (outcome_fold_eq_ok_iff e).mp h with _ | ⟨-, hnode, -⟩
    · cases hname
    · cases hnode with
      | field name => exact hname
      | convert inner inner' => exact absurd rfl (hconvert inner)
      | _ => cases hname

/-- Folding adds no member to those that are compared. -/
lemma ComparesMember.of_outcome_fold {condition folded : Expr σ} {s s' : σ} {name : String}
    (hcompares : folded.ComparesMember name) (h : outcome condition.fold s = (.ok folded, s')) :
    condition.ComparesMember name := by
  obtain ⟨op, left', right', hleaf', hop, hname⟩ := hcompares
  have hopen' : (binary op left' right').dependsOnRecord = true := by
    rw [dependsOnRecord, ← dependsOnRecord_withoutConversions left', hname]
    rfl
  obtain ⟨leaf, hleaf, s, s', hfold⟩ := exists_leaf_of_mem_folded h hleaf' hopen'
  have hopen : leaf.dependsOnRecord = true :=
    (isFolded_of_outcome_fold leaf hfold).2.symm.trans hopen'
  rcases (outcome_fold_eq_ok_iff leaf).mp hfold with _ | ⟨-, hnode, -⟩
  cases hnode with
  | binary _ left right _ _ =>
    obtain ⟨_, _, _, hleft, -, heq⟩ := (outcome_fold_binary_eq_ok_iff hopen).mp hfold
    cases heq
    exact ⟨op, left, right, hleaf, hop, withoutConversions_of_outcome_fold hleft hname⟩

/-- A field is resolved alike where the registries agree on it. -/
lemma resolve_congr {e : Expr σ} (operator : String)
    (h : ∀ name, e.withoutConversions = field name →
      registry.mapping name = registry'.mapping name) :
    registry.resolve operator e = registry'.resolve operator e := by
  simp only [FieldRegistry.resolve]
  cases he : e.withoutConversions with
  | field name => simp only [h name he]
  | indexer key => cases key <;> rfl
  | _ => rfl

/-- A folded condition is translated alike where the registries agree on what it compares. -/
lemma ofExpr_congr {e : Expr σ}
    (h : ∀ name, e.ComparesMember name → registry.mapping name = registry'.mapping name) :
    Predicate.ofExpr registry e = Predicate.ofExpr registry' e := by
  induction e using induction_on_leaves with
  | leaf e hleaf =>
    cases e with
    | binary op left right =>
      rw [Predicate.ofExpr_binary hleaf.isConnective_eq,
        Predicate.ofExpr_binary hleaf.isConnective_eq]
      cases hop : op.isComparison with
      | false =>
        rw [Comparison.ofOperands_of_not_isComparison hop,
          Comparison.ofOperands_of_not_isComparison hop]
      | true =>
        have hleft := resolve_congr op.name fun name hname =>
          h name ⟨op, left, right, by simp [hleaf.leaves_eq], hop, hname⟩
        rw [Comparison.ofOperands, hleft, Comparison.ofOperands]
    | _ => rfl
  | joined op left right hop ihl ihr =>
    have hleft := ihl fun name hname => h name ((comparesMember_joined_iff hop).mpr (.inl hname))
    have hright := ihr fun name hname => h name ((comparesMember_joined_iff hop).mpr (.inr hname))
    rw [Predicate.ofExpr_joined hop, Predicate.ofExpr_joined hop, hleft, hright]

/-- A condition is compiled alike where the registries agree on what it compares. -/
lemma toPredicate_congr {condition : Expr σ}
    (h : ∀ name, condition.ComparesMember name →
      registry.mapping name = registry'.mapping name) :
    condition.toPredicate registry = condition.toPredicate registry' := by
  refine bind_congr_of_outcome fun c folded c' hfold => ?_
  rw [outcome_ofEvaluation_eq_ok_iff] at hfold
  rw [ofExpr_congr fun name hname => h name (hname.of_outcome_fold hfold.1)]

end Expr

/-! ### Pipelines -/

namespace Pipeline

/-- One of the conditions compares the member. -/
def ComparesMember (p : Pipeline σ R) (name : String) : Prop :=
  ∃ condition ∈ p.conditions, condition.ComparesMember name

variable (registry registry') in
/-- The conditions of a pipeline are compiled in step under both registries. -/
lemma inStep_mapM_reregistered (p : Pipeline σ R) :
    InStep (List.Forall₂ (Predicate.Reregistered registry registry'))
      (Error.Reregistered registry registry') (p.conditions.mapM (Expr.toPredicate registry))
      (p.conditions.mapM (Expr.toPredicate registry')) := by
  refine .mapM (List.forall₂_same.mpr fun _ _ => rfl) ?_
  rintro condition _ rfl
  exact condition.inStep_toPredicate_reregistered registry registry'

/-- Only the members that are compared are ever asked for. -/
lemma compile_congr {p : Pipeline σ R}
    (h : ∀ name, p.ComparesMember name → registry.mapping name = registry'.mapping name) :
    p.compile registry = p.compile registry' := by
  have hconditions : InStep (List.Forall₂ Eq) Eq
      (p.conditions.mapM (Expr.toPredicate registry))
      (p.conditions.mapM (Expr.toPredicate registry')) := by
    refine .mapM (P := fun condition condition' => condition = condition' ∧
      condition ∈ p.conditions) (List.forall₂_same.mpr fun _ hmem => ⟨rfl, hmem⟩) ?_
    rintro condition _ ⟨rfl, hmem⟩
    rw [Expr.toPredicate_congr fun name hname => h name ⟨condition, hmem, hname⟩]
    exact .same fun _ => rfl
  have hstages := Stage.AgreesWith.refl_all p.declared
  refine InStep.eq ((inStep_compile (fun _ => rfl) hstages hconditions).imp ?_)
  rintro q _ ⟨filters, hfilters, rfl⟩
  rw [List.forall₂_eq_eq_eq] at hfilters
  rw [← hfilters]

/-- Under two registries a pipeline is compiled or not alike.  The two queries have the same
orderings, paging and fields to look up, and their predicates differ in nothing but the names of
members and the operators that the policy of a member chooses.  Where the registries agree on the
members that are compared, the outcomes are the same. -/
theorem compile_reregistered (registry registry' : FieldRegistry) (p : Pipeline σ R) :
    InStep
      (fun q q' => List.Forall₂ (Predicate.Reregistered registry registry') q.filters q'.filters ∧
        q'.directive = { q.directive with filterText := q'.filterText })
      (Error.Reregistered registry registry') (p.compile registry) (p.compile registry') ∧
    ((∀ name, p.ComparesMember name → registry.mapping name = registry'.mapping name) →
      p.toDirective registry = p.toDirective registry') := by
  constructor
  · have hconditions := p.inStep_mapM_reregistered registry registry'
    have hstages := Stage.AgreesWith.refl_all p.declared
    refine (inStep_compile .same hstages hconditions).imp ?_
    rintro q _ ⟨filters, hfilters, rfl⟩
    have hnames : filters.map Predicate.dynamicNames = q.filters.map Predicate.dynamicNames := by
      rw [← List.forall₂_eq_eq_eq, List.forall₂_map_left_iff, List.forall₂_map_right_iff]
      exact hfilters.flip.imp fun _ _ h => h.dynamicNames_eq
    exact ⟨hfilters, CompiledQuery.directive_withFilters (congrArg List.flatten hnames)⟩
  · intro hagree
    rw [toDirective, compile_congr hagree, toDirective]

/-- Issues of no component by their summary. -/
def unplacedSample : Pipeline Unit Unit :=
  .ofDeclared [
    .filter (.binary .andAlso (.binary .equal (.field "Summary") (.constant (.text "crash")))
      (.binary .equal (.field "Components") (.constant .null))),
    .order (.field "FixVersions") .ascending false]

/-- Issues with many votes by their summary. -/
def votedSample : Pipeline Unit Unit :=
  .ofDeclared [
    .filter (.binary .greaterThan (.field "Votes") (.constant (.int 3))),
    .order (.field "Summary") .ascending false]

/-- The first sample names and compares its members differently under the empty registry; the second
compares none by a policy and compiles to the very same. -/
theorem compile_reregistered_unplaced :
    (∃ q q', outcome (unplacedSample.compile .issue) ⟨(), []⟩ = (.ok q, ⟨(), []⟩) ∧
      outcome (unplacedSample.compile .empty) ⟨(), []⟩ = (.ok q', ⟨(), []⟩) ∧
      q.directive.jql = "(Summary ~ \"crash\" and component is null) order by FixVersions asc" ∧
      q'.directive.jql = "(Summary = \"crash\" and Components is null) order by FixVersions asc" ∧
      List.Forall₂ (Predicate.Reregistered .issue .empty) q.filters q'.filters) ∧
    votedSample.toDirective .issue = votedSample.toDirective .empty := by
  constructor
  · obtain ⟨q, hq, htext⟩ : ∃ q : CompiledQuery,
        outcome (unplacedSample.compile .issue) ⟨(), []⟩ = (.ok q, ⟨(), []⟩) ∧
        q.directive.jql = "(Summary ~ \"crash\" and component is null) order by FixVersions asc" :=
      ⟨_, rfl, by decide⟩
    obtain ⟨q', hq', htext'⟩ : ∃ q : CompiledQuery,
        outcome (unplacedSample.compile .empty) ⟨(), []⟩ = (.ok q, ⟨(), []⟩) ∧
        q.directive.jql = "(Summary = \"crash\" and Components is null) order by FixVersions asc" :=
      ⟨_, rfl, by decide⟩
    obtain ⟨hstep, -⟩ := compile_reregistered .issue .empty unplacedSample
    obtain ⟨hresult, -⟩ := hstep ⟨(), []⟩
    rw [hq, hq'] at hresult
    cases hresult with
    | ok halike => exact ⟨q, q', hq, hq', htext, htext', halike.1⟩
  · refine (compile_reregistered .issue .empty votedSample).2 ?_
    rintro name ⟨condition, hcondition, op, left, right, hleaf, -, hname⟩
    obtain rfl := List.mem_singleton.mp hcondition
    obtain ⟨rfl, rfl, rfl⟩ := Expr.binary.inj (List.mem_singleton.mp hleaf)
    obtain rfl := Expr.field.inj hname
    rfl

end Pipeline

end IssueQuery

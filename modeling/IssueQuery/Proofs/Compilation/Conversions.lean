import IssueQuery.Proofs.Compilation.Acceptance
import IssueQuery.Proofs.Compilation.Leaves
import IssueQuery.Proofs.Compilation.Lockstep

/-!
# Conversions

A conversion changes nothing, so an expression may be written without its conversions
(`Expr.bare`).  It evaluates to the same value, and it folds to the same expression without
conversions (`Expr.fold_bare`).

At one place a conversion does matter.  The query language has no conversions of conditions, so a
conversion around a whole condition, or around one side of a conjunction or disjunction, stays
where it is in `Expr.bareOperands`; when it reads the record it is refused.
`Pipeline.toDirective_conversions` has both: all other conversions may come and go, and these make a
compilation fail.
-/

namespace IssueQuery

variable {σ R : Type} {registry : FieldRegistry}

/-- To take an evaluation into a compilation goes with a map of its value. -/
lemma Compilation.ofEvaluation_map {α β : Type} (g : α → β) (x : Evaluation σ α) :
    ofEvaluation (g <$> x) = g <$> ofEvaluation x := by
  refine eq_of_outcome fun c => ?_
  rw [outcome_map, outcome_ofEvaluation, outcome_ofEvaluation, outcome_map]
  rcases outcome x c.host with ⟨_ | a, host⟩ <;> rfl

namespace Expr

/-! ### Expressions without conversions -/

mutual

/-- The expression without its conversions. -/
def bare : Expr σ → Expr σ
  | field name => field name
  | indexer key => indexer key.bare
  | constant v => constant v
  | captured name read => captured name read
  | call name args apply => call name (allBare args) apply
  | convert inner => inner.bare
  | not inner => not inner.bare
  | binary op left right => binary op left.bare right.bare

/-- The expressions without their conversions. -/
def allBare : List (Expr σ) → List (Expr σ)
  | [] => []
  | e :: es => e.bare :: allBare es

end

mutual

/-- An expression reads the record exactly when it does so without its conversions. -/
theorem dependsOnRecord_bare (e : Expr σ) : e.bare.dependsOnRecord = e.dependsOnRecord := by
  cases e with
  | call name args apply => exact anyDependsOnRecord_allBare args
  | convert inner => exact dependsOnRecord_bare inner
  | not inner => exact dependsOnRecord_bare inner
  | binary op left right =>
    rw [bare, dependsOnRecord, dependsOnRecord_bare left, dependsOnRecord_bare right,
      dependsOnRecord]
  | _ => rfl

/-- Arguments read the record exactly when they do so without their conversions. -/
theorem anyDependsOnRecord_allBare (es : List (Expr σ)) :
    anyDependsOnRecord (allBare es) = anyDependsOnRecord es := by
  cases es with
  | nil => rfl
  | cons e es =>
    rw [allBare, anyDependsOnRecord, dependsOnRecord_bare e, anyDependsOnRecord_allBare es,
      anyDependsOnRecord]

end

mutual

/-- Conversions do not change a value. -/
theorem evaluate_bare (e : Expr σ) : e.bare.evaluate = e.evaluate := by
  cases e with
  | call name args apply => rw [bare, evaluate, evaluateAll_allBare args, evaluate]
  | convert inner => exact evaluate_bare inner
  | not inner => rw [bare, evaluate, evaluate_bare inner, evaluate]
  | binary op left right =>
    rw [bare, evaluate, evaluate_bare left, evaluate_bare right, evaluate]
  | _ => rfl

/-- Arguments have the same values without their conversions. -/
theorem evaluateAll_allBare (es : List (Expr σ)) : evaluateAll (allBare es) = evaluateAll es := by
  cases es with
  | nil => rfl
  | cons e es => rw [allBare, evaluateAll, evaluate_bare e, evaluateAll_allBare es, evaluateAll]

end

/-- A closed expression folds to a constant, with or without conversions. -/
lemma fold_bare_of_closed {e : Expr σ} (he : e.dependsOnRecord = false) :
    e.bare.fold = bare <$> e.fold := by
  rw [fold_of_closed he, fold_of_closed (by rw [dependsOnRecord_bare, he]), evaluate_bare,
    ← comp_map]
  rfl

mutual

/-- What is folded without conversions is the folded expression without conversions. -/
theorem fold_bare (e : Expr σ) : e.bare.fold = bare <$> e.fold := by
  by_cases hopen : e.dependsOnRecord = true
  · cases e with
    | field name => rfl
    | indexer key =>
      rw [bare, fold, fold_bare key, fold, ← comp_map, ← comp_map]
      rfl
    | constant v => simp [dependsOnRecord] at hopen
    | captured name read => simp [dependsOnRecord] at hopen
    | call name args apply =>
      have hreads : anyDependsOnRecord (allBare args) = true := by
        rwa [anyDependsOnRecord_allBare]
      rw [bare, fold_call_of_open hreads, fold_call_of_open hopen, foldAll_allBare args,
        ← comp_map, ← comp_map]
      rfl
    | convert inner =>
      have hreads : inner.dependsOnRecord = true := hopen
      rw [bare, fold_convert_of_open hreads, fold_bare inner, ← comp_map]
      rfl
    | not inner =>
      have hreads : inner.dependsOnRecord = true := hopen
      have hreads' : inner.bare.dependsOnRecord = true := by rwa [dependsOnRecord_bare]
      rw [bare, fold_not_of_open hreads', fold_not_of_open hreads, fold_bare inner, ← comp_map,
        ← comp_map]
      rfl
    | binary op left right =>
      have hopen' : (binary op left right).bare.dependsOnRecord = true := by
        rwa [dependsOnRecord_bare]
      rw [bare, fold_binary_of_open hopen', fold_binary_of_open hopen, fold_bare left,
        fold_bare right]
      simp only [map_eq_pure_bind, bind_assoc, pure_bind, bare]
  · exact fold_bare_of_closed (by simpa using hopen)

/-- Arguments fold alike without their conversions. -/
theorem foldAll_allBare (es : List (Expr σ)) : foldAll (allBare es) = allBare <$> foldAll es := by
  cases es with
  | nil => rfl
  | cons e es =>
    rw [allBare, foldAll, fold_bare e, foldAll_allBare es, foldAll]
    simp only [map_eq_pure_bind, bind_assoc, pure_bind, allBare]

end

/-- In a folded expression a constant has no conversions to lose. -/
lemma IsFolded.bare_eq_constant_iff {e : Expr σ} (he : e.IsFolded) {v : Value} :
    e.bare = constant v ↔ e = constant v := by
  constructor
  · intro h
    have hclosed : e.dependsOnRecord = false := by
      rw [← dependsOnRecord_bare, h]
      rfl
    obtain ⟨w, rfl⟩ := he.eq_constant hclosed
    exact h
  · rintro rfl
    rfl

/-! ### Ordering keys -/

/-- An ordering key names the same field without its conversions. -/
lemma toOrderField_bare (key : Expr σ) (stage : String) :
    key.bare.toOrderField stage = key.toOrderField stage := by
  induction key using withoutConversions.induct with
  | case1 inner ih => exact ih
  | case2 key hkey =>
    cases key with
    | convert inner => exact absurd rfl (hkey inner)
    | indexer name =>
      simp only [bare, toOrderField, Expr.withoutConversions, fold_bare,
        Compilation.ofEvaluation_map, bind_map_left]
      refine bind_congr_of_outcome fun c folded c' hfold => ?_
      have hfolded := (isFolded_of_outcome_fold name (outcome_ofEvaluation_eq_ok_iff.mp hfold).1).1
      cases folded with
      | constant v => rfl
      | _ =>
        split
        next v hv => exact absurd (hfolded.bare_eq_constant_iff.mp hv) (by simp)
        next => rfl
    | _ => rfl

/-! ### Conditions -/

/-- The condition without conversions inside of its leaves.  A conversion that is a leaf itself
stays. -/
def bareOperands : Expr σ → Expr σ
  | binary .andAlso left right => binary .andAlso left.bareOperands right.bareOperands
  | binary .orElse left right => binary .orElse left.bareOperands right.bareOperands
  | convert inner => convert inner.bare
  | e => e.bare

/-- A connective keeps its own node, and its conversions are those of its sides. -/
lemma bareOperands_joined {op : BinaryOp} (hop : op.isConnective = true) (left right : Expr σ) :
    (binary op left right).bareOperands = binary op left.bareOperands right.bareOperands := by
  rcases BinaryOp.isConnective_iff.mp hop with rfl | rfl
  · rfl
  · rfl

/-- A leaf keeps its own node. -/
lemma IsLeaf.bareOperands_eq {e : Expr σ} (he : e.IsLeaf) (hconvert : ∀ inner, e ≠ convert inner) :
    e.bareOperands = e.bare :=
  bareOperands.eq_4 e (fun left right => he .andAlso left right rfl)
    (fun left right => he .orElse left right rfl) hconvert

/-- In a folded expression the conversions do not matter for the field that it refers to. -/
lemma IsFolded.refersTo_bare_iff {e : Expr σ} (he : e.IsFolded) {field : ResolvedField} :
    e.bare.RefersTo registry field ↔ e.RefersTo registry field := by
  induction e using withoutConversions.induct with
  | case1 inner ih =>
    rw [bare, ih he.2]
    constructor
    · exact .convert
    · rintro ⟨⟩
      assumption
  | case2 e hconvert =>
    cases e with
    | convert inner => exact absurd rfl (hconvert inner)
    | field name => rfl
    | indexer key =>
      have hkey : key.IsFolded := he
      constructor
      · intro h
        generalize hindexer : (indexer key).bare = e' at h
        cases h with
        | dynamic v =>
          obtain rfl := hkey.bare_eq_constant_iff.mp (indexer.inj hindexer)
          exact .dynamic v
        | _ => cases hindexer
      · rintro ⟨⟩
        exact .dynamic _
    | _ => constructor <;> rintro ⟨⟩

/-- In a folded expression the conversions do not matter for its resolution. -/
lemma IsFolded.resolve_bare {e : Expr σ} (he : e.IsFolded) (operator : String) :
    registry.resolve operator e.bare = registry.resolve operator e := by
  cases h : registry.resolve operator e with
  | ok field =>
    rw [resolve_eq_ok_iff] at h ⊢
    exact he.refersTo_bare_iff.mpr h
  | error error =>
    obtain ⟨rfl, hnone⟩ := resolve_eq_error h
    cases h' : registry.resolve operator e.bare with
    | ok field => exact absurd (he.refersTo_bare_iff.mp (resolve_eq_ok_iff.mp h')) (hnone field)
    | error error' => rw [(resolve_eq_error h').1]

/-- Conversions do not hide the literal on the right side of a comparison. -/
lemma literalOperand_bare (e : Expr σ) (op : BinaryOp) :
    e.bare.literalOperand op = e.literalOperand op := by
  induction e using withoutConversions.induct with
  | case1 inner ih => exact ih
  | case2 e he =>
    cases e with
    | convert inner => exact absurd rfl (he inner)
    | _ => rfl

/-- A folded condition is translated alike without the conversions inside of its leaves. -/
lemma IsFolded.ofExpr_bareOperands {e : Expr σ} (he : e.IsFolded) :
    Predicate.ofExpr registry e.bareOperands = Predicate.ofExpr registry e := by
  induction e using induction_on_leaves with
  | leaf e hleaf =>
    cases e with
    | convert inner => rfl
    | binary op left right =>
      have hop : op.isConnective = false := hleaf.isConnective_eq
      rw [hleaf.bareOperands_eq nofun, bare, Predicate.ofExpr_binary hop,
        Predicate.ofExpr_binary hop, Comparison.ofOperands, literalOperand_bare,
        IsFolded.resolve_bare he.2.1, Comparison.ofOperands]
    | _ => rfl
  | joined op left right hop ihl ihr =>
    rw [bareOperands_joined hop, Predicate.ofExpr_joined hop, Predicate.ofExpr_joined hop,
      ihl he.2.1, ihr he.2.2]

/-! ### Folding of conditions -/

/-- A condition reads the record exactly when it does so without the conversions in its leaves. -/
lemma dependsOnRecord_bareOperands (e : Expr σ) :
    e.bareOperands.dependsOnRecord = e.dependsOnRecord := by
  induction e using induction_on_leaves with
  | leaf e hleaf =>
    cases e with
    | convert inner => exact dependsOnRecord_bare inner
    | _ => rw [hleaf.bareOperands_eq nofun, dependsOnRecord_bare]
  | joined op left right hop ihl ihr =>
    rw [bareOperands_joined hop, dependsOnRecord, ihl, ihr, dependsOnRecord]

/-- A condition has the same value without the conversions in its leaves. -/
lemma evaluate_bareOperands (e : Expr σ) : e.bareOperands.evaluate = e.evaluate := by
  induction e using induction_on_leaves with
  | leaf e hleaf =>
    cases e with
    | convert inner => exact evaluate_bare inner
    | _ => rw [hleaf.bareOperands_eq nofun, evaluate_bare]
  | joined op left right hop ihl ihr =>
    rw [bareOperands_joined hop, evaluate, ihl, ihr, evaluate]

/-- A leaf that is no conversion folds to such a leaf, and so loses all conversions within it. -/
lemma IsLeaf.map_bareOperands_fold {e : Expr σ} (he : e.IsLeaf)
    (hconvert : ∀ inner, e ≠ convert inner) : bareOperands <$> e.fold = bare <$> e.fold := by
  rw [map_eq_pure_bind, map_eq_pure_bind]
  refine bind_congr_of_outcome fun s e' s' hfold => ?_
  have hnone : ∀ inner, e' ≠ convert inner := by
    rintro inner rfl
    rcases (outcome_fold_eq_ok_iff e).mp hfold with _ | ⟨-, hnode, -⟩
    cases hnode
    exact hconvert _ rfl
  rw [(he.of_outcome_fold hfold).bareOperands_eq hnone]

/-- A condition folds alike without the conversions inside of its leaves. -/
lemma fold_bareOperands (e : Expr σ) : e.bareOperands.fold = bareOperands <$> e.fold := by
  have hclosed {e : Expr σ} (he : e.dependsOnRecord = false) :
      e.bareOperands.fold = bareOperands <$> e.fold := by
    rw [fold_of_closed he, fold_of_closed (by rw [dependsOnRecord_bareOperands, he]),
      evaluate_bareOperands, ← comp_map]
    rfl
  induction e using induction_on_leaves with
  | leaf e hleaf =>
    cases hopen : e.dependsOnRecord with
    | false => exact hclosed hopen
    | true =>
      cases e with
      | convert inner =>
        have hreads : inner.dependsOnRecord = true := hopen
        have hreads' : inner.bare.dependsOnRecord = true := by rwa [dependsOnRecord_bare]
        rw [bareOperands, fold_convert_of_open hreads', fold_convert_of_open hreads, fold_bare,
          ← comp_map, ← comp_map]
        rfl
      | _ =>
        -- Any other leaf folds to a node of its kind, so that it loses all conversions.
        rw [hleaf.map_bareOperands_fold nofun, hleaf.bareOperands_eq nofun, fold_bare]
  | joined op left right hop ihl ihr =>
    cases hopen : (binary op left right).dependsOnRecord with
    | false => exact hclosed hopen
    | true =>
      have hopen' : (binary op left right).bareOperands.dependsOnRecord = true := by
        rwa [dependsOnRecord_bareOperands]
      rw [bareOperands_joined hop] at hopen' ⊢
      rw [fold_binary_of_open hopen', fold_binary_of_open hopen, ihl, ihr]
      simp only [map_eq_pure_bind, bind_assoc, pure_bind, bareOperands_joined hop]

/-- A condition is compiled alike without the conversions inside of its leaves. -/
lemma toPredicate_bareOperands (condition : Expr σ) :
    condition.bareOperands.toPredicate registry = condition.toPredicate registry := by
  rw [toPredicate, fold_bareOperands, Compilation.ofEvaluation_map, bind_map_left, toPredicate]
  refine bind_congr_of_outcome fun c folded c' hfold => ?_
  have hfolded :=
    (isFolded_of_outcome_fold condition (outcome_ofEvaluation_eq_ok_iff.mp hfold).1).1
  rw [hfolded.ofExpr_bareOperands]

end Expr

/-! ### Pipelines -/

/-- The stage without conversions, but for those that are leaves of its condition. -/
def Stage.bare : Stage σ R → Stage σ R
  | filter condition => filter condition.bareOperands
  | order key direction secondary => order key.bare direction secondary
  | take count => take count
  | skip count => skip count
  | localFilter predicate => localFilter predicate

/-- A stage compiles in the first pass as it does without its conversions. -/
lemma Stage.agreesWith_bare (stage : Stage σ R) : stage.AgreesWith stage.bare := by
  cases stage with
  | filter condition => exact .filter _ _
  | order key direction secondary =>
    exact .order direction secondary fun stage => (key.toOrderField_bare stage).symm
  | take count => exact .take count
  | skip count => exact .skip count
  | localFilter predicate => exact .localFilter _ _

namespace Pipeline

/-- The pipeline without conversions, but for those that are leaves of its conditions. -/
def bare (p : Pipeline σ R) : Pipeline σ R := ⟨p.newestFirst.map Stage.bare⟩

/-- The conversions go out of the stages in their order of declaration. -/
lemma declared_bare (p : Pipeline σ R) : p.bare.declared = p.declared.map Stage.bare :=
  List.map_reverse.symm

/-- The conditions of a pipeline without conversions are its conditions without those in their
leaves. -/
lemma conditions_bare (p : Pipeline σ R) :
    p.bare.conditions = p.conditions.map Expr.bareOperands := by
  rw [conditions, declared_bare, List.filterMap_map, conditions, List.map_filterMap]
  refine List.filterMap_congr fun stage _ => ?_
  cases stage <;> rfl

/-- A pipeline is compiled alike without its conversions. -/
lemma compile_bare (registry : FieldRegistry) (p : Pipeline σ R) :
    p.bare.compile registry = p.compile registry := by
  have hstages : List.Forall₂ Stage.AgreesWith p.declared p.bare.declared := by
    rw [declared_bare, List.forall₂_map_right_iff]
    exact List.forall₂_same.mpr fun stage _ => stage.agreesWith_bare
  have hconditions : InStep Eq Eq (p.conditions.mapM (Expr.toPredicate registry))
      (p.bare.conditions.mapM (Expr.toPredicate registry)) := by
    have halike : Expr.toPredicate registry ∘ Expr.bareOperands =
        Expr.toPredicate registry (σ := σ) := funext Expr.toPredicate_bareOperands
    rw [conditions_bare, List.mapM_map, halike]
    exact .same fun _ => rfl
  refine (InStep.eq ((inStep_compile (fun _ => rfl) hstages hconditions).imp ?_)).symm
  rintro q _ ⟨_, rfl, rfl⟩
  rfl

/-- A directive does not depend on the conversions in a pipeline, as long as they are no leaves of a
condition. -/
lemma toDirective_bare (registry : FieldRegistry) (p : Pipeline σ R) :
    p.bare.toDirective registry = p.toDirective registry := by
  rw [toDirective, compile_bare, toDirective]

end Pipeline

/-! ### Conversions of conditions -/

namespace Expr

/-- A conversion that is a leaf of a condition and reads the record is one of the folded condition
as well. -/
lemma exists_convert_of_outcome_fold {condition folded inner : Expr σ} {s s' : σ}
    (h : outcome condition.fold s = (.ok folded, s')) (hleaf : .convert inner ∈ condition.leaves)
    (hopen : inner.dependsOnRecord = true) : ∃ inner', .convert inner' ∈ folded.leaves := by
  obtain ⟨leaf', hleaf', s, s', hfold⟩ := exists_leaf_of_outcome_fold h hleaf hopen
  rw [fold_convert_of_open hopen, outcome_map_eq_ok_iff] at hfold
  obtain ⟨inner', -, rfl⟩ := hfold
  exact ⟨inner', hleaf'⟩

/-- A condition with such a conversion is not translated. -/
lemma not_translatesTo_of_convert {condition inner : Expr σ} {host host' : σ}
    {predicate : Predicate} (hleaf : .convert inner ∈ condition.leaves)
    (hopen : inner.dependsOnRecord = true) :
    ¬ TranslatesTo registry condition host predicate host' := by
  rintro ⟨folded, hfold, hpredicate⟩
  obtain ⟨inner', hleaf'⟩ := exists_convert_of_outcome_fold hfold hleaf hopen
  have hfolded := (isFolded_of_outcome_fold condition hfold).1
  have hcomparison := (Predicate.exists_ofExpr_eq_ok_iff hfolded).mp ⟨predicate, hpredicate⟩
  cases hcomparison _ hleaf'

/-- Nothing in the condition is refused but conversions: it folds without error, and its leaves are
comparisons that the query language has and conversions. -/
def OnlyConversionsRefused (registry : FieldRegistry) (host : σ) (condition : Expr σ) : Prop :=
  ∃ folded, (outcome condition.fold host).1 = .ok folded ∧
    ∀ leaf ∈ folded.leaves, leaf.IsComparison registry ∨ ∃ inner, leaf = .convert inner

/-- Where nothing but conversions is refused, the error is that of a conversion. -/
lemma OnlyConversionsRefused.conditionError_eq {condition : Expr σ} {host : σ} {error : Error}
    (h : condition.OnlyConversionsRefused registry host)
    (herror : condition.ConditionError registry host error) : error = .notSupported "Convert" := by
  obtain ⟨folded, hfold, hleaves⟩ := h
  cases herror with
  | folding hcause =>
    rw [hfold] at hcause
    cases hcause
  | leaf hfold' hfirst =>
    obtain ⟨before, leaf, after, hsplit, -, hleaf⟩ := hfirst
    obtain rfl := Except.ok.inj (hfold.symm.trans hfold')
    rcases hleaves leaf (by simp [hsplit]) with hcomparison | ⟨inner, rfl⟩
    · exact absurd hleaf hcomparison.not_leafError
    · cases hleaf
      rfl

end Expr

namespace Pipeline

/-- A pipeline with a conversion that is a leaf of a condition and reads the record is not
compiled. -/
lemma exists_error_of_convert (registry : FieldRegistry) {p : Pipeline σ R}
    {condition inner : Expr σ} (hcondition : condition ∈ p.conditions)
    (hleaf : .convert inner ∈ condition.leaves) (hopen : inner.dependsOnRecord = true)
    (c : Context σ) : ∃ error c', outcome (p.toDirective registry) c = (.error error, c') := by
  rcases h : outcome (p.toDirective registry) c with ⟨error | d, c'⟩
  · exact ⟨error, c', rfl⟩
  · obtain ⟨q, hq, -⟩ := outcome_toDirective_eq_ok_iff.mp h
    obtain ⟨draft, c₁, predicates, hfirst, hsecond, -⟩ := outcome_compile_eq_ok_iff.mp hq
    rw [conditions_eq_of_outcome_foldlM hfirst] at hsecond
    obtain ⟨before, after, hsplit⟩ := List.append_of_mem hcondition
    have hsteps := successively_translatesTo hsecond
    rw [hsplit] at hsteps
    obtain ⟨_, predicate, _, s, s', -, -, htranslates, -⟩ := hsteps.exists_of_append_cons
    exact absurd htranslates (Expr.not_translatesTo_of_convert hleaf hopen)

/-- Conversions may come and go around ordering keys, around the operands of comparisons and
anywhere within them: compilation has the same outcome.  But a conversion that is a whole condition
or a side of a conjunction or disjunction, and that reads the record, makes it fail; and if nothing
else is refused, it is this conversion that is not supported. -/
theorem toDirective_conversions (registry : FieldRegistry) (p : Pipeline σ R) :
    (∀ p' : Pipeline σ R, p'.bare = p.bare → p'.toDirective registry = p.toDirective registry) ∧
    ∀ condition ∈ p.conditions, ∀ inner, .convert inner ∈ condition.leaves →
      inner.dependsOnRecord = true → ∀ c : Context σ,
        (∃ error c', outcome (p.toDirective registry) c = (.error error, c')) ∧
        (p.IsPure → p.PassesFirst c.host →
          (∀ other ∈ p.conditions, other.OnlyConversionsRefused registry c.host) →
          ∃ c', outcome (p.toDirective registry) c = (.error (.notSupported "Convert"), c')) := by
  constructor
  · intro p' hbare
    rw [← p.toDirective_bare, ← hbare, p'.toDirective_bare]
  · intro condition hcondition inner hleaf hopen c
    obtain ⟨error, c', herror⟩ := exists_error_of_convert registry hcondition hleaf hopen c
    refine ⟨⟨error, c', herror⟩, fun hp hfirst hothers => ?_⟩
    rcases refusal_of_outcome_toDirective hp herror with
      ⟨newer, stage, older, hsplit, -, hstage⟩ | ⟨-, before, other, after, hsplit, -, hother⟩
    · exact absurd hstage (hfirst newer stage older hsplit error)
    · obtain rfl := (hothers other (by simp [hsplit])).conditionError_eq hother
      exact ⟨c', herror⟩

/-- Records by their team, with conversions wherever they do not matter. -/
def convertedSample : Pipeline Unit Unit :=
  .ofDeclared [
    .filter (.binary .equal (.convert (.indexer (.convert (.convert (.constant (.text "Team"))))))
      (.convert (.captured "team" fun n => (.ok (.text "core"), n)))),
    .order (.convert (.convert (.indexer (.convert (.constant (.text "Rank")))))) .ascending false]

/-- Records by their votes, with a conversion around a side of the condition. -/
def convertedConditionSample : Pipeline Unit Unit :=
  .ofDeclared [
    .filter (.binary .andAlso (.binary .greaterThan (.field "Votes") (.constant (.int 3)))
      (.convert (.binary .equal (.field "Team") (.constant (.text "core"))))),
    .order (.field "Created") .descending false]

/-- Conversions on operands and keys leave no trace in the first sample; the one around a side of a
condition in the second is refused. -/
theorem toDirective_conversions_converted :
    outcome (convertedSample.bare.toDirective .issue) ⟨(), []⟩ =
        (.ok ⟨"\"Team\" ~ \"core\"", [⟨.dynamic "Rank", .ascending⟩], none, none,
          ["Rank", "Team"]⟩, ⟨(), []⟩) ∧
      convertedSample.toDirective .issue = convertedSample.bare.toDirective .issue ∧
      ∃ c', outcome (convertedConditionSample.toDirective .issue) ⟨(), []⟩ =
        (.error (.notSupported "Convert"), c') := by
  have hp : convertedConditionSample.IsPure := by
    intro stage hstage
    simp only [convertedConditionSample, ofDeclared, List.reverse_cons, List.reverse_nil,
      List.nil_append, List.cons_append, List.mem_cons, List.not_mem_nil, or_false] at hstage
    rcases hstage with rfl | rfl
    · trivial
    · exact ⟨⟨trivial, trivial⟩, trivial, trivial⟩
  have hfirst : convertedConditionSample.PassesFirst () :=
    passesFirst_of_outcome_foldlM (c := ⟨(), []⟩) hp rfl
  have hothers : ∀ other ∈ convertedConditionSample.conditions,
      other.OnlyConversionsRefused .issue () := by
    intro other hother
    obtain rfl := List.mem_singleton.mp hother
    refine ⟨_, rfl, fun leaf hleaf => ?_⟩
    rcases List.mem_pair.mp hleaf with rfl | rfl
    · exact .inl (.ordering rfl (.member "Votes") rfl)
    · exact .inr ⟨_, rfl⟩
  obtain ⟨-, hconvert⟩ := toDirective_conversions .issue convertedConditionSample
  obtain ⟨halike, -⟩ := toDirective_conversions .issue convertedSample.bare
  refine ⟨by cbv, halike convertedSample rfl, ?_⟩
  exact (hconvert _ (List.mem_singleton.mpr rfl) _ (List.mem_pair.mpr (.inr rfl)) rfl
    ⟨(), []⟩).2 hp hfirst hothers

end Pipeline

end IssueQuery

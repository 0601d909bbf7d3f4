import IssueQuery.Proofs.Compilation.Exchange

/-!
# The predicates of a compiled pipeline

A condition folds to a tree of conjunctions and disjunctions over comparisons, and its predicate is
the same tree: each comparison stands where the comparison that it renders stood
(`Predicate.Renders`), so that both have the same truth value however the comparisons come out.

A comparison is well formed (`Comparison.IsWellFormed`) when operator, operand and field go together
as the query language wants them: the keywords only after `is` and `is not`, null never by order,
and so on.  `Pipeline.compile_wellFormed` says that all predicates of a compiled pipeline are of
this kind.  A field that is looked up is compared with plain text by `~` only where the condition
asks for equality; an order is compared by its own operator, whatever the text
(`Pipeline.compile_orders_text`).
-/

namespace IssueQuery

variable {σ R : Type}

/-! ### Well-formed comparisons -/

namespace Operator

/-- Whether the operator takes one of the keywords. -/
def takesKeyword : Operator → Bool
  | is | isNot => true
  | _ => false

/-- Whether the operator compares by order. -/
def isOrdering : Operator → Bool
  | greaterThan | greaterThanOrEquals | lessThan | lessThanOrEquals => true
  | _ => false

/-- Whether the operator compares by containment. -/
def isContainment : Operator → Bool
  | contains | notContains => true
  | _ => false

/-- Whether the operator compares by equality with a literal, be it exactly or by containment. -/
def isEquality : Operator → Bool
  | equals | notEquals | contains | notContains => true
  | _ => false

section Equality

variable (policy : EqualityPolicy) (positive : Bool)

/-- An operator that asks for equality takes no keyword. -/
@[simp] lemma takesKeyword_equality : (equality policy positive).takesKeyword = false := by
  cases policy <;> cases positive <;> rfl

/-- An operator that asks for equality does not compare by order. -/
@[simp] lemma isOrdering_equality : (equality policy positive).isOrdering = false := by
  cases policy <;> cases positive <;> rfl

/-- Equality is asked for by containment exactly when the policy says so. -/
@[simp] lemma isContainment_equality :
    (equality policy positive).isContainment = decide (policy = .contains) := by
  cases policy <;> cases positive <;> rfl

end Equality

end Operator

/-- Field, operator and operand of a comparison go together. -/
structure Comparison.IsWellFormed (c : Comparison) : Prop where
  keyword : c.operator.takesKeyword = true ↔ c.operand = .null ∨ c.operand = .empty
  ordering : c.operator.isOrdering = true → c.operand ≠ .literal .null
  null : c.operand = .literal .null →
    (∃ name, c.field = .dynamic name) ∧ (c.operator = .equals ∨ c.operator = .notEquals)
  member : ∀ name v, c.field = .member name → c.operator.isEquality = true →
    c.operand = .literal v → v.isNull = false ∧ v.isEmptyText = false
  exact : ∀ s, c.operand = .literal (.exact s) → c.operator.isContainment = false
  /-- An ordering of a field that is looked up keeps its own operator, also on plain text. -/
  dynamic : ∀ name, c.field = .dynamic name → c.operator.isOrdering = false →
    (c.operator.isContainment = true ↔ ∃ s, c.operand = .literal (.text s))

/-! ### Rendered comparisons -/

/-- The operators that may stand for an operator of a condition. -/
def BinaryOp.renderings : BinaryOp → List Operator
  | equal => [.equals, .contains, .is]
  | notEqual => [.notEquals, .notContains, .isNot]
  | greaterThan => [.greaterThan]
  | greaterThanOrEqual => [.greaterThanOrEquals]
  | lessThan => [.lessThan]
  | lessThanOrEqual => [.lessThanOrEquals]
  | andAlso | orElse | add | subtract | multiply | divide | modulo => []

/-- What may stand for a literal: the literal itself, or a keyword for null and for empty text. -/
inductive Operand.Renders : Operand → Value → Prop where
  | literal (v : Value) : Renders (.literal v) v
  | null : Renders .null .null
  | empty {v : Value} : v.isEmptyText = true → Renders .empty v

/-- The comparison of the query is the one that a leaf of the condition asks for. -/
inductive Comparison.Renders (registry : FieldRegistry) (c : Comparison) : Expr σ → Prop where
  | mk {op : BinaryOp} {left : Expr σ} {field : ResolvedField} {v : Value} :
    left.RefersTo registry field → c.field = field.reference → c.operator ∈ op.renderings →
      c.operand.Renders v → Renders registry c (.binary op left (.constant v))

/-- The predicate is the tree of the condition, with a rendering in the place of each comparison. -/
inductive Predicate.Renders (registry : FieldRegistry) : Predicate → Expr σ → Prop where
  | comparison {c : Comparison} {leaf : Expr σ} :
    c.Renders registry leaf → Renders registry (.comparison c) leaf
  | and {l r : Predicate} {left right : Expr σ} :
    l.Renders registry left → r.Renders registry right →
      Renders registry (.and l r) (.binary .andAlso left right)
  | or {l r : Predicate} {left right : Expr σ} :
    l.Renders registry left → r.Renders registry right →
      Renders registry (.or l r) (.binary .orElse left right)

/-! ### Truth values -/

/-- The truth value of a condition, given those of its comparisons from left to right. -/
def Expr.truth : Expr σ → List Bool → Bool
  | binary .andAlso left right, values =>
    left.truth (values.take left.leaves.length) && right.truth (values.drop left.leaves.length)
  | binary .orElse left right, values =>
    left.truth (values.take left.leaves.length) || right.truth (values.drop left.leaves.length)
  | _, values => values.headD false

/-- The truth value of a predicate, given those of its comparisons from left to right. -/
def Predicate.truth : Predicate → List Bool → Bool
  | comparison _, values => values.headD false
  | and l r, values =>
    l.truth (values.take l.comparisons.length) && r.truth (values.drop l.comparisons.length)
  | or l r, values =>
    l.truth (values.take l.comparisons.length) || r.truth (values.drop l.comparisons.length)

/-! ### What a single comparison becomes -/

namespace Comparison

variable {registry : FieldRegistry} {op : BinaryOp} {field : ResolvedField} {v : Value}
  {c : Comparison}

/-- A keyword is well formed after an operator that takes one. -/
lemma isWellFormed_keyword {mapping : FieldMapping} {operator : Operator} {operand : Operand}
    (hoperator : operator.takesKeyword = true) (hoperand : operand = .null ∨ operand = .empty) :
    (⟨.member mapping.queryName, operator, operand⟩ : Comparison).IsWellFormed := by
  have hliteral : ∀ v, operand ≠ .literal v := by
    rcases hoperand with rfl | rfl <;> exact nofun
  exact {
    keyword := ⟨fun _ => hoperand, fun _ => hoperator⟩
    ordering := fun _ => hliteral .null
    null := fun h => absurd h (hliteral .null)
    member := fun _ v _ _ h => absurd h (hliteral v)
    exact := fun s h => absurd h (hliteral (.exact s))
    dynamic := nofun }

/-- What a comparison by equality becomes is well formed. -/
lemma isWellFormed_ofEquality (positive : Bool) (field : ResolvedField) (v : Value) :
    (ofEquality positive field v).IsWellFormed := by
  have htakes : (if positive then Operator.is else Operator.isNot).takesKeyword = true := by
    cases positive <;> rfl
  cases field with
  | member mapping =>
    by_cases hnull : v.isNull = true
    · rw [ofEquality, if_pos hnull]
      exact isWellFormed_keyword htakes (.inl rfl)
    by_cases hempty : v.isEmptyText = true
    · rw [ofEquality, if_neg hnull, if_pos hempty]
      exact isWellFormed_keyword htakes (.inr rfl)
    · rw [ofEquality, if_neg hnull, if_neg hempty]
      exact {
        keyword := by simp
        ordering := by simp
        null := by
          rintro ⟨⟩
          exact absurd rfl hnull
        member := by
          rintro _ _ - - ⟨⟩
          exact ⟨by simpa using hnull, by simpa using hempty⟩
        exact := by
          rintro s ⟨⟩
          simp [Value.type]
        dynamic := by rintro _ ⟨⟩ }
  | dynamic name =>
    exact {
      keyword := by simp [ofEquality]
      ordering := by simp [ofEquality]
      null := by
        rintro ⟨⟩
        exact ⟨⟨name, rfl⟩, by cases positive <;> simp [ofEquality, Value.type, Operator.equality]⟩
      member := by rintro _ _ ⟨⟩
      exact := by
        rintro s ⟨⟩
        simp [ofEquality, Value.type]
      dynamic := by
        rintro _ - -
        cases v <;> simp [ofEquality, Value.type] }

/-- What a comparison by order becomes is well formed. -/
lemma isWellFormed_ofOrdering {operator : Operator} (hordering : operator.isOrdering = true)
    (h : ofOrdering op operator field v = .ok c) : c.IsWellFormed := by
  rw [ofOrdering] at h
  split_ifs at h with hnull
  obtain rfl := Except.ok.inj h
  have hnot : operator.takesKeyword = false ∧ operator.isEquality = false ∧
      operator.isContainment = false := by
    cases operator <;> first | exact ⟨rfl, rfl, rfl⟩ | simp [Operator.isOrdering] at hordering
  have hliteral : Operand.literal v ≠ .literal .null := by
    rintro ⟨⟩
    exact hnull rfl
  exact {
    keyword := by simp [hnot.1]
    ordering := fun _ => hliteral
    null := fun h => absurd h hliteral
    member := by simp [hnot.2.1]
    exact := fun _ _ => hnot.2.2
    dynamic := by simp [hordering] }

/-- What a comparison by equality becomes compares the same field with the same literal. -/
lemma renders_ofEquality {left : Expr σ} (positive : Bool) (hfield : left.RefersTo registry field)
    (v : Value) :
    (ofEquality positive field v).Renders registry
      (.binary (if positive then .equal else .notEqual) left (.constant v)) := by
  have hkeyword : (if positive then Operator.is else Operator.isNot) ∈
      (if positive then BinaryOp.equal else .notEqual).renderings := by
    cases positive <;> simp [BinaryOp.renderings]
  have hpolicy : ∀ policy, Operator.equality policy positive ∈
      (if positive then BinaryOp.equal else .notEqual).renderings := by
    intro policy
    cases policy <;> cases positive <;> simp [BinaryOp.renderings, Operator.equality]
  cases field with
  | member mapping =>
    by_cases hnull : v.isNull = true
    · rw [ofEquality, if_pos hnull]
      obtain rfl : v = .null := by cases v <;> simp_all [Value.isNull]
      exact .mk hfield rfl hkeyword .null
    by_cases hempty : v.isEmptyText = true
    · rw [ofEquality, if_neg hnull, if_pos hempty]
      exact .mk hfield rfl hkeyword (.empty hempty)
    · rw [ofEquality, if_neg hnull, if_neg hempty]
      exact .mk hfield rfl (hpolicy _) (.literal v)
  | dynamic name => exact .mk hfield rfl (hpolicy _) (.literal v)

/-- What a comparison by order becomes compares the same field with the same literal. -/
lemma renders_ofOrdering {operator : Operator} {left : Expr σ} (hmem : operator ∈ op.renderings)
    (hfield : left.RefersTo registry field) (h : ofOrdering op operator field v = .ok c) :
    c.Renders registry (.binary op left (.constant v)) := by
  rw [ofOrdering] at h
  split_ifs at h
  obtain rfl := Except.ok.inj h
  exact .mk hfield rfl hmem (.literal v)

/-- A folded leaf that is translated is rendered by a well-formed comparison. -/
lemma renders_of_ofOperands {left right : Expr σ} (hright : right.IsFolded)
    (h : ofOperands registry op left right = .ok c) :
    c.Renders registry (.binary op left right) ∧ c.IsWellFormed := by
  obtain ⟨make, field, v, hmake, hfield, hoperand, hc⟩ := ofOperands_eq_ok_iff.mp h
  obtain rfl := hright.literalOperand_eq_ok_iff.mp hoperand
  cases op with
  | equal =>
    obtain rfl := Option.some.inj hmake
    obtain rfl := Except.ok.inj hc
    exact ⟨renders_ofEquality true hfield v, isWellFormed_ofEquality true field v⟩
  | notEqual =>
    obtain rfl := Option.some.inj hmake
    obtain rfl := Except.ok.inj hc
    exact ⟨renders_ofEquality false hfield v, isWellFormed_ofEquality false field v⟩
  | greaterThan | greaterThanOrEqual | lessThan | lessThanOrEqual =>
    obtain rfl := Option.some.inj hmake
    exact ⟨renders_ofOrdering (by simp [BinaryOp.renderings]) hfield hc,
      isWellFormed_ofOrdering rfl hc⟩
  | _ => simp [ofOperator?] at hmake

end Comparison

/-! ### What a whole condition becomes -/

namespace Predicate

variable {registry : FieldRegistry}

/-- The predicate of a folded condition is the same tree, and its comparisons are well formed. -/
lemma renders_ofExpr {folded : Expr σ} {predicate : Predicate} (hfolded : folded.IsFolded)
    (h : ofExpr registry folded = .ok predicate) :
    predicate.Renders registry folded ∧ ∀ c ∈ predicate.comparisons, c.IsWellFormed := by
  induction folded using ofExpr.induct generalizing predicate with
  | case1 left right ihl ihr =>
    obtain ⟨l, r, hl, hr, rfl⟩ := (ofExpr_connective_eq_ok_iff rfl).mp h
    obtain ⟨hleft, hleftOk⟩ := ihl hfolded.2.1 hl
    obtain ⟨hright, hrightOk⟩ := ihr hfolded.2.2 hr
    refine ⟨.and hleft hright, fun c hc => ?_⟩
    exact (List.mem_append.mp hc).elim (hleftOk c) (hrightOk c)
  | case2 left right ihl ihr =>
    obtain ⟨l, r, hl, hr, rfl⟩ := (ofExpr_connective_eq_ok_iff rfl).mp h
    obtain ⟨hleft, hleftOk⟩ := ihl hfolded.2.1 hl
    obtain ⟨hright, hrightOk⟩ := ihr hfolded.2.2 hr
    refine ⟨.or hleft hright, fun c hc => ?_⟩
    exact (List.mem_append.mp hc).elim (hleftOk c) (hrightOk c)
  | case3 op left right hand hor =>
    rw [ofExpr.eq_3 _ _ _ _ hand hor, except_map_eq_ok_iff] at h
    obtain ⟨c, hc, rfl⟩ := h
    obtain ⟨hrenders, hwellFormed⟩ := Comparison.renders_of_ofOperands hfolded.2.2 hc
    exact ⟨.comparison hrenders, by simpa [comparisons] using hwellFormed⟩
  | case4 e hand hor hbinary => simp [ofExpr.eq_4 _ _ hand hor hbinary] at h

/-- What a single comparison renders is a leaf of the condition. -/
lemma leaf_of_renders {c : Comparison} {leaf : Expr σ} (h : c.Renders registry leaf) :
    leaf.leaves = [leaf] ∧ ∀ values, leaf.truth values = values.headD false := by
  obtain ⟨-, -, hoperator, -⟩ := h
  rename_i op left field v
  cases op with
  | equal | notEqual | greaterThan | greaterThanOrEqual | lessThan | lessThanOrEqual =>
    exact ⟨rfl, fun _ => rfl⟩
  | _ => simp [BinaryOp.renderings] at hoperator

/-- The comparisons of a rendering render the leaves of the condition, from left to right. -/
lemma Renders.forall₂ {predicate : Predicate} {condition : Expr σ}
    (h : predicate.Renders registry condition) :
    List.Forall₂ (Comparison.Renders registry) predicate.comparisons condition.leaves := by
  induction h with
  | comparison hc =>
    rw [(leaf_of_renders hc).1]
    exact .cons hc .nil
  | and _ _ ihl ihr | or _ _ ihl ihr => exact List.rel_append ihl ihr

/-- A rendering has the truth value of the condition, whatever those of the comparisons are. -/
lemma Renders.truth_eq {predicate : Predicate} {condition : Expr σ}
    (h : predicate.Renders registry condition) (values : List Bool) :
    predicate.truth values = condition.truth values := by
  induction h generalizing values with
  | comparison hc => rw [truth, (leaf_of_renders hc).2]
  | and hl hr ihl ihr => rw [truth, Expr.truth, ihl, ihr, hl.forall₂.length_eq]
  | or hl hr ihl ihr => rw [truth, Expr.truth, ihl, ihr, hl.forall₂.length_eq]

end Predicate

/-- The predicate is what the condition becomes when its closed parts are folded on the host: the
same tree, with a well-formed comparison in the place of each comparison of the condition. -/
def RendersFolded (registry : FieldRegistry) (condition : Expr σ) (host : σ) (predicate : Predicate)
    (host' : σ) : Prop :=
  ∃ folded, outcome condition.fold host = (.ok folded, host') ∧
    predicate.Renders registry folded ∧
    List.Forall₂ (Comparison.Renders registry) predicate.comparisons folded.leaves ∧
    (∀ values, predicate.truth values = folded.truth values) ∧
    ∀ c ∈ predicate.comparisons, c.IsWellFormed

/-- The predicate that a condition translates to renders the folded condition. -/
lemma TranslatesTo.rendersFolded {registry : FieldRegistry} {condition : Expr σ} {host host' : σ}
    {predicate : Predicate} (h : TranslatesTo registry condition host predicate host') :
    RendersFolded registry condition host predicate host' := by
  obtain ⟨folded, hfold, hpredicate⟩ := h
  obtain ⟨hrenders, hwellFormed⟩ :=
    Predicate.renders_ofExpr (Expr.isFolded_of_outcome_fold condition hfold).1 hpredicate
  exact ⟨folded, hfold, hrenders, hrenders.forall₂, hrenders.truth_eq, hwellFormed⟩

namespace Pipeline

/-- The predicates of a compiled pipeline are its conditions, one after another.  Each has the shape
of the folded condition, its comparisons stand for the leaves of the condition from left to right,
both have the same truth value, and every comparison is well formed. -/
theorem compile_wellFormed {registry : FieldRegistry} {p : Pipeline σ R} {q : CompiledQuery}
    {c c' : Context σ} (h : outcome (p.compile registry) c = (.ok q, c')) :
    ∃ host, Successively (RendersFolded registry) p.conditions host q.filters c'.host := by
  obtain ⟨draft, c₁, predicates, hfirst, hsecond, rfl⟩ := outcome_compile_eq_ok_iff.mp h
  rw [conditions_eq_of_outcome_foldlM hfirst] at hsecond
  have hsteps := successively_translatesTo hsecond
  exact ⟨c₁.host, hsteps.imp fun _ _ _ _ _ => TranslatesTo.rendersFolded⟩

/-- Conditions on members and on fields that are looked up, by equality and by order. -/
def triageSample : Pipeline Unit Unit :=
  .ofDeclared [
    .filter (.binary .orElse
      (.binary .andAlso
        (.binary .equal (.field "Summary") (.constant (.text "crash")))
        (.binary .notEqual (.convert (.field "Resolution")) (.constant .null)))
      (.binary .andAlso
        (.binary .equal (.customField "Team") (.constant (.text "core")))
        (.binary .greaterThan (.customField "Points")
          (.binary .add (.constant (.int 2)) (.constant (.int 3)))))),
    .filter (.binary .notEqual (.customField "Sprint") (.constant .null))]

/-- What the conditions of the sample become. -/
def triageFilters : List Predicate := [
  .or
    (.and (.comparison ⟨.member "Summary", .contains, .literal (.text "crash")⟩)
      (.comparison ⟨.member "Resolution", .isNot, .null⟩))
    (.and (.comparison ⟨.dynamic "Team", .contains, .literal (.text "core")⟩)
      (.comparison ⟨.dynamic "Points", .greaterThan, .literal (.int 5)⟩)),
  .comparison ⟨.dynamic "Sprint", .notEquals, .literal .null⟩]

/-- The sample compiles to its predicates, and these render its conditions one after the other. -/
theorem compile_wellFormed_triage :
    outcome (triageSample.compile .issue) ⟨(), []⟩ =
      (.ok ⟨triageFilters, [], none, none⟩, ⟨(), []⟩) ∧
    ∃ host, Successively (RendersFolded .issue) triageSample.conditions host triageFilters () := by
  have h : outcome (triageSample.compile .issue) ⟨(), []⟩ =
      (.ok ⟨triageFilters, [], none, none⟩, ⟨(), []⟩) := by
    cbv
  exact ⟨h, compile_wellFormed h⟩

/-- The order of a field that is looked up is asked for by its own operator, also against plain
text. -/
theorem compile_orders_text :
    ∃ q, outcome ((⟨[.filter (.binary .greaterThan (.customField "Rank")
        (.constant (.text "abc")))]⟩ : Pipeline Unit Unit).compile .issue) ⟨(), []⟩ =
          (.ok q, ⟨(), []⟩) ∧
      ∃ predicate ∈ q.filters, ∃ c ∈ predicate.comparisons, c.field = .dynamic "Rank" ∧
        ¬ (c.operator.isContainment = true ↔ ∃ s, c.operand = .literal (.text s)) := by
  refine ⟨⟨[.comparison ⟨.dynamic "Rank", .greaterThan, .literal (.text "abc")⟩], [], none, none⟩,
    by cbv, _, List.mem_singleton.mpr rfl, _, List.mem_singleton.mpr rfl, rfl, ?_⟩
  simp [Operator.isContainment]

end Pipeline

end IssueQuery

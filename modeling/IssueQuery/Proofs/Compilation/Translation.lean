import IssueQuery.Proofs.Expr.Folding

/-!
# Translation of folded conditions

A folded condition is a tree of conjunctions and disjunctions over its `Expr.leaves`.  It translates
exactly when every leaf compares a field with a literal (`Predicate.exists_ofExpr_eq_ok_iff`), and
otherwise the error is that of the leftmost leaf that does not
(`Predicate.firstLeafError_of_ofExpr`).  `Expr.LeafError` says which error that is: what is not a
comparison at all is named by its kind, a field is looked at before a literal, and a null that is
compared by order comes last.
-/

namespace IssueQuery

variable {σ : Type}

/-- Whether the operator is one of `==` and `!=`. -/
def BinaryOp.isEquality : BinaryOp → Bool
  | equal | notEqual => true
  | _ => false

/-- The two operators that ask for equality or for its opposite. -/
lemma BinaryOp.isEquality_iff {op : BinaryOp} :
    op.isEquality = true ↔ op = .equal ∨ op = .notEqual := by
  cases op <;> simp [isEquality]

/-- Whether the operator compares by order. -/
def BinaryOp.isOrdering : BinaryOp → Bool
  | greaterThan | greaterThanOrEqual | lessThan | lessThanOrEqual => true
  | _ => false

/-- Whether the operator compares. -/
def BinaryOp.isComparison (op : BinaryOp) : Bool := op.isEquality || op.isOrdering

namespace Expr

/-- What stands between the conjunctions and disjunctions of a condition, from left to right. -/
def leaves : Expr σ → List (Expr σ)
  | binary .andAlso left right | binary .orElse left right => left.leaves ++ right.leaves
  | e => [e]

/-- The expression refers to a field, under conversions: a member as it is registered, or an indexed
field by a constant name. -/
inductive RefersTo (registry : FieldRegistry) : Expr σ → ResolvedField → Prop where
  | member (name : String) : RefersTo registry (.field name) (.member (registry.mapping name))
  | dynamic (v : Value) : RefersTo registry (.indexer (.constant v)) (.dynamic v.fieldName)
  | convert {inner : Expr σ} {field : ResolvedField} :
    RefersTo registry inner field → RefersTo registry (.convert inner) field

/-- A comparison that the query language has: a field on the left side and a literal on the right
side, which must not be null when the operator compares by order. -/
inductive IsComparison (registry : FieldRegistry) : Expr σ → Prop where
  | equality {op : BinaryOp} {left : Expr σ} {field : ResolvedField} {v : Value} :
    op.isEquality = true → left.RefersTo registry field →
      IsComparison registry (.binary op left (.constant v))
  | ordering {op : BinaryOp} {left : Expr σ} {field : ResolvedField} {v : Value} :
    op.isOrdering = true → left.RefersTo registry field → v.isNull = false →
      IsComparison registry (.binary op left (.constant v))

/-- Why a leaf is not a comparison that the query language has. -/
inductive LeafError (registry : FieldRegistry) : Expr σ → Error → Prop where
  | node {e : Expr σ} :
    (∀ op left right, e ≠ .binary op left right) →
      LeafError registry e (.notSupported e.kind.name)
  | operator {op : BinaryOp} {left right : Expr σ} :
    op.isComparison = false → LeafError registry (.binary op left right) (.notSupported op.name)
  | field {op : BinaryOp} {left right : Expr σ} :
    op.isComparison = true → (∀ field, ¬ left.RefersTo registry field) →
      LeafError registry (.binary op left right) (.unsupportedField op.name)
  | operand {op : BinaryOp} {left right : Expr σ} {field : ResolvedField} :
    op.isComparison = true → left.RefersTo registry field → (∀ v, right ≠ .constant v) →
      LeafError registry (.binary op left right) (.nonConstantOperand op)
  | null {op : BinaryOp} {left : Expr σ} {field : ResolvedField} {v : Value} :
    op.isOrdering = true → left.RefersTo registry field → v.isNull = true →
      LeafError registry (.binary op left (.constant v)) (.nullComparison field.reference.text op)

/-! ### Operands -/

/-- A field is resolved exactly when the expression refers to it. -/
lemma resolve_eq_ok_iff {registry : FieldRegistry} {operator : String} {e : Expr σ}
    {field : ResolvedField} :
    registry.resolve operator e = .ok field ↔ e.RefersTo registry field := by
  induction e using withoutConversions.induct with
  | case1 inner ih =>
    have hinner : registry.resolve operator (convert inner) = registry.resolve operator inner := rfl
    rw [hinner, ih]
    constructor
    · exact .convert
    · rintro ⟨⟩
      assumption
  | case2 e he =>
    cases e with
    | convert inner => exact absurd rfl (he inner)
    | field name =>
      simp only [FieldRegistry.resolve, withoutConversions, Except.ok.injEq]
      constructor
      · rintro rfl
        exact .member name
      · rintro ⟨⟩
        rfl
    | indexer key =>
      cases key with
      | constant v =>
        simp only [FieldRegistry.resolve, withoutConversions, Except.ok.injEq]
        constructor
        · rintro rfl
          exact .dynamic v
        · rintro ⟨⟩
          rfl
      | _ =>
        simp only [FieldRegistry.resolve, withoutConversions, reduceCtorEq, false_iff]
        rintro ⟨⟩
    | _ =>
      simp only [FieldRegistry.resolve, withoutConversions, reduceCtorEq, false_iff]
      rintro ⟨⟩

/-- An expression that refers to no field is refused in the name of the operator. -/
lemma resolve_eq_error {registry : FieldRegistry} {operator : String} {e : Expr σ} {error : Error}
    (h : registry.resolve operator e = .error error) :
    error = .unsupportedField operator ∧ ∀ field, ¬ e.RefersTo registry field := by
  constructor
  · rw [FieldRegistry.resolve] at h
    split at h
    · simp at h
    · simp at h
    · simpa using h.symm
  · intro field hfield
    rw [resolve_eq_ok_iff.mpr hfield] at h
    simp at h

/-- A conversion neither reads the record nor hides that its inner expression does. -/
lemma dependsOnRecord_withoutConversions (e : Expr σ) :
    e.withoutConversions.dependsOnRecord = e.dependsOnRecord := by
  induction e using withoutConversions.induct with
  | case1 inner ih => exact ih
  | case2 e he => rw [withoutConversions]; exact he

/-- In a folded expression no constant stands under a conversion. -/
lemma IsFolded.eq_constant_of_withoutConversions {e : Expr σ} {v : Value} (he : e.IsFolded)
    (h : e.withoutConversions = .constant v) : e = .constant v := by
  have hclosed : e.dependsOnRecord = false := by
    rw [← dependsOnRecord_withoutConversions, h]
    rfl
  obtain ⟨w, rfl⟩ := he.eq_constant hclosed
  exact h

/-- A folded right side is a literal exactly when it is a constant. -/
lemma IsFolded.literalOperand_eq_ok_iff {op : BinaryOp} {e : Expr σ} {v : Value}
    (he : e.IsFolded) : e.literalOperand op = .ok v ↔ e = .constant v := by
  constructor
  · intro h
    rw [literalOperand] at h
    split at h
    · rename_i w hw
      rw [Except.ok.injEq] at h
      exact he.eq_constant_of_withoutConversions (h ▸ hw)
    · simp at h
  · rintro rfl
    rfl

/-- What is no literal is refused in the name of the operator. -/
lemma IsFolded.literalOperand_eq_error {op : BinaryOp} {e : Expr σ} {error : Error}
    (he : e.IsFolded) (h : e.literalOperand op = .error error) :
    error = .nonConstantOperand op ∧ ∀ v, e ≠ .constant v := by
  constructor
  · rw [literalOperand] at h
    split at h
    · simp at h
    · simpa using h.symm
  · intro v hv
    rw [he.literalOperand_eq_ok_iff.mpr hv] at h
    simp at h

/-! ### Leaves -/

/-- A comparison that the query language has is not refused. -/
lemma IsComparison.not_leafError {registry : FieldRegistry} {e : Expr σ} {error : Error}
    (he : e.IsComparison registry) : ¬ LeafError registry e error := by
  intro h
  cases he with
  | equality hop hfield =>
    cases h with
    | node hnode => exact hnode _ _ _ rfl
    | operator hnot => simp [BinaryOp.isComparison, hop] at hnot
    | field _ hnone => exact hnone _ hfield
    | operand _ _ hright => exact hright _ rfl
    | null hord =>
      revert hop hord
      cases ‹BinaryOp› <;> simp [BinaryOp.isEquality, BinaryOp.isOrdering]
  | ordering hop hfield hv =>
    cases h with
    | node hnode => exact hnode _ _ _ rfl
    | operator hnot => simp [BinaryOp.isComparison, hop] at hnot
    | field _ hnone => exact hnone _ hfield
    | operand _ _ hright => exact hright _ rfl
    | null _ _ hnull => simp [hv] at hnull

end Expr

namespace Comparison

open IssueQuery.Expr

variable {registry : FieldRegistry} {op : BinaryOp} {left right : Expr σ}

/-- The operators of equality have a comparison by equality, positive or not. -/
lemma ofOperator?_of_isEquality (h : op.isEquality = true) :
    ∃ positive, ofOperator? op = some fun field v => .ok (ofEquality positive field v) := by
  rcases BinaryOp.isEquality_iff.mp h with rfl | rfl
  · exact ⟨true, rfl⟩
  · exact ⟨false, rfl⟩

/-- The operators of order have a comparison by order. -/
lemma ofOperator?_of_isOrdering (h : op.isOrdering = true) :
    ∃ operator, ofOperator? op = some (ofOrdering op operator) := by
  cases op with
  | greaterThan => exact ⟨.greaterThan, rfl⟩
  | greaterThanOrEqual => exact ⟨.greaterThanOrEquals, rfl⟩
  | lessThan => exact ⟨.lessThan, rfl⟩
  | lessThanOrEqual => exact ⟨.lessThanOrEquals, rfl⟩
  | _ => simp [BinaryOp.isOrdering] at h

/-- Only comparisons have a place in the query language. -/
lemma ofOperator?_eq_none (h : op.isComparison = false) : ofOperator? op = none := by
  cases op <;> simp_all [BinaryOp.isComparison, BinaryOp.isEquality, BinaryOp.isOrdering,
    ofOperator?]

/-- An operator that does not compare is refused whatever its operands are. -/
lemma ofOperands_of_not_isComparison (h : op.isComparison = false) :
    ofOperands registry op left right = .error (.notSupported op.name) := by
  rw [ofOperands, ofOperator?_eq_none h]

variable (registry left) in
/-- A comparison resolves its field first and then its literal, and only then compares them. -/
lemma ofOperands_of_ofOperator? {make : ResolvedField → Value → Except Error Comparison}
    (hop : op.isComparison = true) (hright : right.IsFolded) (hmake : ofOperator? op = some make) :
    (∃ error, ofOperands registry op left right = .error error ∧
      LeafError registry (binary op left right) error) ∨
    ∃ field v, left.RefersTo registry field ∧ right = constant v ∧
      ofOperands registry op left right = make field v := by
  simp only [ofOperands, hmake]
  cases hfield : registry.resolve op.name left with
  | error error =>
    obtain ⟨rfl, hnone⟩ := resolve_eq_error hfield
    exact .inl ⟨_, rfl, .field hop hnone⟩
  | ok field =>
    rw [resolve_eq_ok_iff] at hfield
    cases hv : right.literalOperand op with
    | error error =>
      obtain ⟨rfl, hnone⟩ := hright.literalOperand_eq_error hv
      exact .inl ⟨_, rfl, .operand hop hfield hnone⟩
    | ok v => exact .inr ⟨field, v, hfield, hright.literalOperand_eq_ok_iff.mp hv, rfl⟩

/-- A leaf with an operator is a comparison that the query language has, or it is refused. -/
lemma ofOperands_isComparison_or_leafError (hright : right.IsFolded) :
    (∃ c, ofOperands registry op left right = .ok c ∧
      (binary op left right).IsComparison registry) ∨
    ∃ error, ofOperands registry op left right = .error error ∧
      LeafError registry (binary op left right) error := by
  by_cases hequality : op.isEquality = true
  · obtain ⟨positive, hmake⟩ := ofOperator?_of_isEquality hequality
    have hop : op.isComparison = true := by simp [BinaryOp.isComparison, hequality]
    rcases ofOperands_of_ofOperator? registry left hop hright hmake with
      herror | ⟨field, v, hfield, rfl, heq⟩
    · exact .inr herror
    · exact .inl ⟨_, heq, .equality hequality hfield⟩
  by_cases hordering : op.isOrdering = true
  · obtain ⟨operator, hmake⟩ := ofOperator?_of_isOrdering hordering
    have hop : op.isComparison = true := by simp [BinaryOp.isComparison, hordering]
    rcases ofOperands_of_ofOperator? registry left hop hright hmake with
      herror | ⟨field, v, hfield, rfl, heq⟩
    · exact .inr herror
    · cases hv : v.isNull with
      | true => exact .inr ⟨_, by rw [heq, ofOrdering, if_pos hv], .null hordering hfield hv⟩
      | false =>
        have hnot : ¬ v.isNull = true := by simp [hv]
        exact .inl ⟨_, by rw [heq, ofOrdering, if_neg hnot], .ordering hordering hfield hv⟩
  · have hop : op.isComparison = false := by simp [BinaryOp.isComparison, hequality, hordering]
    exact .inr ⟨_, ofOperands_of_not_isComparison hop, .operator hop⟩

end Comparison

/-! ### Whole conditions -/

/-- The error is that of the leftmost leaf that is no comparison of the query language. -/
def Expr.FirstLeafError (registry : FieldRegistry) (leaves : List (Expr σ)) (error : Error) :
    Prop :=
  ∃ before leaf after, leaves = before ++ leaf :: after ∧
    (∀ l ∈ before, l.IsComparison registry) ∧ LeafError registry leaf error

/-- A result is a predicate when all leaves are comparisons, and otherwise the first error. -/
def Expr.Judges (registry : FieldRegistry) (leaves : List (Expr σ)) :
    Except Error Predicate → Prop
  | .ok _ => ∀ leaf ∈ leaves, leaf.IsComparison registry
  | .error error => FirstLeafError registry leaves error

namespace Predicate

open IssueQuery.Expr

variable {registry : FieldRegistry}

/-- Two judged sides are judged together: the left side comes first. -/
lemma judges_append {left right : List (Expr σ)} {l r : Except Error Predicate}
    (hl : Judges registry left l) (hr : Judges registry right r)
    (join : Predicate → Predicate → Predicate) :
    Judges registry (left ++ right) (do return join (← l) (← r)) := by
  cases l with
  | error error =>
    obtain ⟨before, leaf, after, heq, hbefore, herror⟩ := hl
    exact ⟨before, leaf, after ++ right, by simp [heq], hbefore, herror⟩
  | ok p =>
    cases r with
    | error error =>
      obtain ⟨before, leaf, after, heq, hbefore, herror⟩ := hr
      refine ⟨left ++ before, leaf, after, by simp [heq], ?_, herror⟩
      intro e he
      exact (List.mem_append.mp he).elim (hl e) (hbefore e)
    | ok q =>
      intro e he
      exact (List.mem_append.mp he).elim (hl e) (hr e)

variable (registry) in
/-- The translation of a folded condition judges its leaves. -/
lemma judges_ofExpr {e : Expr σ} (he : e.IsFolded) :
    Judges registry e.leaves (ofExpr registry e) := by
  induction e using ofExpr.induct with
  | case1 left right ihl ihr =>
    rw [leaves, ofExpr]
    exact judges_append (ihl he.2.1) (ihr he.2.2) .and
  | case2 left right ihl ihr =>
    rw [leaves, ofExpr]
    exact judges_append (ihl he.2.1) (ihr he.2.2) .or
  | case3 op left right hand hor =>
    rw [leaves.eq_3 _ (by simpa using hand) (by simpa using hor), ofExpr.eq_3 _ _ _ _ hand hor]
    rcases Comparison.ofOperands_isComparison_or_leafError he.2.2 with
      ⟨c, heq, hc⟩ | ⟨error, heq, herror⟩
    · rw [heq]
      intro leaf hleaf
      rwa [List.mem_singleton.mp hleaf]
    · rw [heq]
      exact ⟨[], _, [], rfl, nofun, herror⟩
  | case4 e hand hor hbinary =>
    rw [leaves.eq_3 _ hand hor, ofExpr.eq_4 _ _ hand hor hbinary]
    exact ⟨[], e, [], rfl, nofun, .node hbinary⟩

/-- A folded condition is translated exactly when all its leaves are comparisons that the query
language has. -/
lemma exists_ofExpr_eq_ok_iff {e : Expr σ} (he : e.IsFolded) :
    (∃ p, ofExpr registry e = .ok p) ↔ ∀ leaf ∈ e.leaves, leaf.IsComparison registry := by
  have hjudges := judges_ofExpr registry he
  cases h : ofExpr registry e with
  | ok p =>
    rw [h] at hjudges
    exact ⟨fun _ => hjudges, fun _ => ⟨p, rfl⟩⟩
  | error error =>
    rw [h] at hjudges
    obtain ⟨before, leaf, after, heq, -, herror⟩ := hjudges
    simp only [reduceCtorEq, exists_false, false_iff]
    intro hall
    exact (hall leaf (by simp [heq])).not_leafError herror

/-- A folded condition that is not translated is refused for its leftmost leaf that is none. -/
lemma firstLeafError_of_ofExpr {e : Expr σ} {error : Error} (he : e.IsFolded)
    (h : ofExpr registry e = .error error) : FirstLeafError registry e.leaves error := by
  have hjudges := judges_ofExpr registry he
  rwa [h] at hjudges

end Predicate

end IssueQuery

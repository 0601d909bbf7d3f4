import IssueQuery.Proofs.Compilation.Leaves
import IssueQuery.Proofs.Compilation.Lockstep
import IssueQuery.Proofs.Compilation.Predicates
import IssueQuery.Proofs.Compilation.CustomFields

/-!
# Equalities and their opposites

A condition asks for equality by `==` and for its opposite by `!=`.  `Expr.Opposes` turns any of the
equalities among the leaves of a condition into their opposites; a list of marks says which ones.
`Pipeline.compile_opposes` is the law: with and without the turned equalities the same pipelines are
compiled, and the predicates differ in nothing but the operators at the marked places, each of which
is the opposite of the other (`Predicate.Opposes`).

Folding may turn a whole side of a condition into a constant.  Its value may then be another one,
but a condition with such a constant is refused in either case.
-/

namespace IssueQuery

variable {σ R : Type} {registry : FieldRegistry}

/-- `==` and `!=` are opposites. -/
def BinaryOp.opposite : BinaryOp → BinaryOp
  | equal => notEqual
  | notEqual => equal
  | op => op

/-- The operators for equality with a literal and with a keyword have opposites. -/
def Operator.opposite : Operator → Operator
  | equals => notEquals
  | notEquals => equals
  | contains => notContains
  | notContains => contains
  | is => isNot
  | isNot => is
  | operator => operator

/-- The second condition is the first with some of its equalities turned into their opposites.
There is a mark for each leaf, from left to right, which says whether it is turned. -/
inductive Expr.Opposes : List Bool → Expr σ → Expr σ → Prop where
  | kept {leaf : Expr σ} : leaf.IsLeaf → Opposes [false] leaf leaf
  | turned {op : BinaryOp} {left right : Expr σ} :
    op.isEquality = true → Opposes [true] (.binary op left right) (.binary op.opposite left right)
  | joined {op : BinaryOp} {marks marks' : List Bool} {left left' right right' : Expr σ} :
    op.isConnective = true → Opposes marks left left' → Opposes marks' right right' →
      Opposes (marks ++ marks') (.binary op left right) (.binary op left' right')

/-- The second predicate is the first with the opposite operators at the marked comparisons. -/
inductive Predicate.Opposes : List Bool → Predicate → Predicate → Prop where
  | kept (c : Comparison) : Opposes [false] (.comparison c) (.comparison c)
  | turned {c : Comparison} : c.operator.isOrdering = false →
      Opposes [true] (.comparison c) (.comparison { c with operator := c.operator.opposite })
  | and {marks marks' : List Bool} {l l' r r' : Predicate} :
    Opposes marks l l' → Opposes marks' r r' → Opposes (marks ++ marks') (.and l r) (.and l' r')
  | or {marks marks' : List Bool} {l l' r r' : Predicate} :
    Opposes marks l l' → Opposes marks' r r' → Opposes (marks ++ marks') (.or l r) (.or l' r')

/-- The errors are the same, but for the operator that they are named after: where the one names an
equality, the other may name its opposite. -/
inductive Error.OfOpposites : Error → Error → Prop where
  | same (error : Error) : OfOpposites error error
  | field {op : BinaryOp} : op.isEquality = true →
      OfOpposites (.unsupportedField op.name) (.unsupportedField op.opposite.name)
  | operand {op : BinaryOp} : op.isEquality = true →
      OfOpposites (.nonConstantOperand op) (.nonConstantOperand op.opposite)

/-! ### Closed conditions -/

/-- The values are the same, or both are truth values. -/
def Value.SameOrTruth (v w : Value) : Prop := v = w ∨ ∃ s t, v = .bool s ∧ w = .bool t

/-- Such values are of the same kind. -/
lemma Value.SameOrTruth.type_eq {v w : Value} (h : v.SameOrTruth w) : v.type = w.type := by
  rcases h with rfl | ⟨s, t, rfl, rfl⟩ <;> rfl

/-- A connective of values gives a truth value or an error that only depends on their kinds. -/
lemma BinaryOp.alike_apply_of_isConnective {op : BinaryOp} (hop : op.isConnective = true)
    {a a' b b' : Value} (ha : a.SameOrTruth a') (hb : b.SameOrTruth b') :
    Alike Value.SameOrTruth Eq (op.apply a b) (op.apply a' b') := by
  have hconnective (combine : Bool → Bool → Bool) : Alike Value.SameOrTruth Eq
      (op.connective combine a b) (op.connective combine a' b') := by
    have hatype := ha.type_eq
    have hbtype := hb.type_eq
    rcases ha with rfl | ⟨s, s', rfl, rfl⟩ <;> rcases hb with rfl | ⟨t, t', rfl, rfl⟩
    · exact .refl (fun _ _ => .inl rfl) fun _ => rfl
    · cases a with
      | bool s => exact .ok (.inr ⟨_, _, rfl, rfl⟩)
      | _ => exact .error rfl
    · cases b with
      | bool t => exact .ok (.inr ⟨_, _, rfl, rfl⟩)
      | _ => exact .error rfl
    · exact .ok (.inr ⟨_, _, rfl, rfl⟩)
  rcases isConnective_iff.mp hop with rfl | rfl
  · exact hconnective and
  · exact hconnective or

/-- An equality of values and its opposite give truth values. -/
lemma BinaryOp.alike_apply_opposite {op : BinaryOp} (hop : op.isEquality = true) (a b : Value) :
    Alike Value.SameOrTruth Eq (op.apply a b) (op.opposite.apply a b) := by
  rcases isEquality_iff.mp hop with rfl | rfl
  · exact .ok (.inr ⟨_, _, rfl, rfl⟩)
  · exact .ok (.inr ⟨_, _, rfl, rfl⟩)

namespace Expr.Opposes

variable {marks : List Bool} {e e' : Expr σ}

/-- A condition and its opposite read the record alike. -/
lemma dependsOnRecord_eq (h : e.Opposes marks e') : e'.dependsOnRecord = e.dependsOnRecord := by
  induction h with
  | kept _ => rfl
  | turned _ => rfl
  | joined _ _ _ ihl ihr => simp only [dependsOnRecord, ihl, ihr]

/-- Turned equalities make a difference for truth values only. -/
lemma inStep_evaluate (h : e.Opposes marks e') :
    InStep Value.SameOrTruth Eq e.evaluate e'.evaluate := by
  induction h with
  | kept _ => exact .refl (fun _ _ _ _ => .inl rfl) fun _ => rfl
  | @turned op left right hop =>
    simp only [evaluate]
    refine .bind_same (fun _ => rfl) fun a => .bind_same (fun _ => rfl) fun b => ?_
    exact .liftExcept (BinaryOp.alike_apply_opposite hop a b)
  | joined hop _ _ ihl ihr =>
    simp only [evaluate]
    refine ihl.bind fun a a' ha => ihr.bind fun b b' hb => ?_
    exact .liftExcept (BinaryOp.alike_apply_of_isConnective hop ha hb)

end Expr.Opposes

/-! ### Folded conditions -/

/-- The conditions come from folding two that oppose each other: closed sides have become constants,
and the rest is as before. -/
inductive Expr.OpposesFolded : List Bool → Expr σ → Expr σ → Prop where
  | constant (marks : List Bool) (v w : Value) : OpposesFolded marks (.constant v) (.constant w)
  | kept {leaf : Expr σ} : leaf.IsLeaf → OpposesFolded [false] leaf leaf
  | turned {op : BinaryOp} {left right : Expr σ} : op.isEquality = true →
      OpposesFolded [true] (.binary op left right) (.binary op.opposite left right)
  | joined {op : BinaryOp} {marks marks' : List Bool} {left left' right right' : Expr σ} :
    op.isConnective = true → OpposesFolded marks left left' → OpposesFolded marks' right right' →
      OpposesFolded (marks ++ marks') (.binary op left right) (.binary op left' right')

namespace Expr

variable {marks : List Bool} {e e' : Expr σ}

/-- Closed conditions that oppose each other fold to constants. -/
lemma Opposes.inStep_fold_of_closed (h : e.Opposes marks e') (hclosed : e.dependsOnRecord = false) :
    InStep (OpposesFolded marks) Eq e.fold e'.fold := by
  rw [fold_of_closed hclosed, fold_of_closed (h.dependsOnRecord_eq.trans hclosed)]
  exact h.inStep_evaluate.map fun v w _ => .constant marks v w

/-- Conditions that oppose each other are folded in step. -/
lemma Opposes.inStep_fold (h : e.Opposes marks e') :
    InStep (OpposesFolded marks) Eq e.fold e'.fold := by
  induction h with
  | kept hleaf => exact .refl (fun _ _ _ hfold => .kept (hleaf.of_outcome_fold hfold)) fun _ => rfl
  | @turned op left right hop =>
    cases hopen : (binary op left right).dependsOnRecord with
    | false => exact (Opposes.turned hop).inStep_fold_of_closed hopen
    | true =>
      rw [fold_binary_of_open hopen, fold_binary_of_open hopen]
      exact .bind_same (fun _ => rfl) fun l => .bind_same (fun _ => rfl) fun r =>
        .pure (.turned hop)
  | @joined op marks marks' left left' right right' hop hl hr ihl ihr =>
    -- One side may be closed and fold to a constant while the other keeps its skeleton.
    cases hopen : (binary op left right).dependsOnRecord with
    | false => exact (Opposes.joined hop hl hr).inStep_fold_of_closed hopen
    | true =>
      have hopen' := (Opposes.joined hop hl hr).dependsOnRecord_eq.trans hopen
      rw [fold_binary_of_open hopen, fold_binary_of_open hopen']
      exact ihl.bind fun l l' hll => ihr.bind fun r r' hrr => .pure (.joined hop hll hrr)

end Expr

/-! ### Translation -/

section Translation

variable (registry) in
/-- A field is resolved in the same way for an equality and for its opposite. -/
lemma FieldRegistry.alike_resolve_opposite {op : BinaryOp} (hop : op.isEquality = true)
    (e : Expr σ) : Alike Eq Error.OfOpposites (registry.resolve op.name e)
      (registry.resolve op.opposite.name e) := by
  simp only [FieldRegistry.resolve]
  cases e.withoutConversions with
  | field name => exact .ok rfl
  | indexer key =>
    cases key with
    | constant v => exact .ok rfl
    | _ => exact .error (.field hop)
  | _ => exact .error (.field hop)

/-- A literal is read in the same way for an equality and for its opposite. -/
lemma Expr.alike_literalOperand_opposite {op : BinaryOp} (hop : op.isEquality = true)
    (e : Expr σ) :
    Alike Eq Error.OfOpposites (e.literalOperand op) (e.literalOperand op.opposite) := by
  simp only [Expr.literalOperand]
  cases e.withoutConversions with
  | constant v => exact .ok rfl
  | _ => exact .error (.operand hop)

/-- The opposite of an equality compares the same field by the opposite operator with the same
operand. -/
lemma Comparison.ofEquality_not (positive : Bool) (field : ResolvedField) (v : Value) :
    ofEquality (!positive) field v =
      { ofEquality positive field v with
        operator := (ofEquality positive field v).operator.opposite } := by
  have hequality (policy : EqualityPolicy) :
      Operator.equality policy (!positive) = (Operator.equality policy positive).opposite := by
    cases policy <;> cases positive <;> rfl
  have hkeyword : (if (!positive) then Operator.is else .isNot) =
      (if positive then Operator.is else .isNot).opposite := by
    cases positive <;> rfl
  cases field with
  | member mapping =>
    simp only [ofEquality, hequality, hkeyword]
    split_ifs <;> rfl
  | dynamic name => simp only [ofEquality, hequality]

/-- An equality, or its opposite, never becomes a comparison by order. -/
lemma Comparison.isOrdering_ofEquality (positive : Bool) (field : ResolvedField) (v : Value) :
    (ofEquality positive field v).operator.isOrdering = false := by
  cases field with
  | member mapping =>
    simp only [ofEquality]
    split_ifs <;> first | rfl | exact Operator.isOrdering_equality _ positive
  | dynamic name => simp [ofEquality]

/-- An equality and its opposite become comparisons with opposite operators. -/
lemma Comparison.alike_ofOperands_opposite {op : BinaryOp} (hop : op.isEquality = true)
    (left right : Expr σ) :
    Alike (fun c c' => c.operator.isOrdering = false ∧
        c' = { c with operator := c.operator.opposite }) Error.OfOpposites
      (ofOperands registry op left right) (ofOperands registry op.opposite left right) := by
  obtain ⟨positive, hmake, hopposite⟩ : ∃ positive,
      ofOperator? op = some (fun field v => .ok (ofEquality positive field v)) ∧
        ofOperator? op.opposite = some fun field v => .ok (ofEquality (!positive) field v) := by
    rcases BinaryOp.isEquality_iff.mp hop with rfl | rfl
    · exact ⟨true, rfl, rfl⟩
    · exact ⟨false, rfl, rfl⟩
  simp only [ofOperands, hmake, hopposite]
  refine (registry.alike_resolve_opposite hop left).bind ?_
  rintro field _ rfl
  refine (right.alike_literalOperand_opposite hop).bind ?_
  rintro v _ rfl
  exact .ok ⟨isOrdering_ofEquality positive field v, ofEquality_not positive field v⟩

/-- A leaf is translated to a comparison. -/
lemma Predicate.exists_comparison_of_ofExpr {leaf : Expr σ} {predicate : Predicate}
    (hleaf : leaf.IsLeaf) (h : ofExpr registry leaf = .ok predicate) :
    ∃ c, predicate = .comparison c := by
  cases leaf with
  | binary op left right =>
    rw [ofExpr_binary hleaf.isConnective_eq, except_map_eq_ok_iff] at h
    obtain ⟨c, -, rfl⟩ := h
    exact ⟨c, rfl⟩
  | _ => simp [ofExpr] at h

/-- Predicates that oppose each other do so when they are joined with others. -/
lemma Predicate.Opposes.ofConnective {marks marks' : List Bool} {l l' r r' : Predicate}
    (op : BinaryOp) (hl : l.Opposes marks l') (hr : r.Opposes marks' r') :
    (Predicate.ofConnective op l r).Opposes (marks ++ marks')
      (Predicate.ofConnective op l' r') := by
  rcases Predicate.ofConnective_cases op with hop | hop
  · rw [hop]
    exact .and hl hr
  · rw [hop]
    exact .or hl hr

/-- Folded conditions that oppose each other are translated alike. -/
lemma Expr.OpposesFolded.alike_ofExpr {marks : List Bool} {e e' : Expr σ}
    (h : e.OpposesFolded marks e') :
    Alike (Predicate.Opposes marks) Error.OfOpposites (Predicate.ofExpr registry e)
      (Predicate.ofExpr registry e') := by
  induction h with
  | constant marks v w =>
    -- The values may differ, but no constant is translated.
    exact .error (.same _)
  | kept hleaf =>
    refine .refl (fun predicate hpredicate => ?_) .same
    obtain ⟨c, rfl⟩ := Predicate.exists_comparison_of_ofExpr hleaf hpredicate
    exact .kept c
  | @turned op left right hop =>
    have hleaf : op.isConnective = false ∧ op.opposite.isConnective = false := by
      rcases BinaryOp.isEquality_iff.mp hop with rfl | rfl
      · exact ⟨rfl, rfl⟩
      · exact ⟨rfl, rfl⟩
    rw [Predicate.ofExpr_binary hleaf.1, Predicate.ofExpr_binary hleaf.2]
    refine (Comparison.alike_ofOperands_opposite hop left right).map ?_
    rintro c _ ⟨hordering, rfl⟩
    exact .turned hordering
  | @joined op marks marks' left left' right right' hop _ _ ihl ihr =>
    rw [Predicate.ofExpr_joined hop, Predicate.ofExpr_joined hop]
    exact ihl.bind fun l l' hl => ihr.bind fun r r' hr => .ok (hl.ofConnective op hr)

variable (registry) in
/-- Conditions that oppose each other are compiled in step. -/
lemma Expr.Opposes.inStep_toPredicate {marks : List Bool} {e e' : Expr σ}
    (h : e.Opposes marks e') :
    InStep (Predicate.Opposes marks) Error.OfOpposites (e.toPredicate registry)
      (e'.toPredicate registry) :=
  (h.inStep_fold.ofEvaluation .same).bind fun _ _ hfolded => .liftExcept hfolded.alike_ofExpr

end Translation

/-! ### Pipelines -/

/-- Predicates that oppose each other name the same fields. -/
lemma Predicate.Opposes.dynamicNames_eq {marks : List Bool} {predicate predicate' : Predicate}
    (h : predicate.Opposes marks predicate') :
    predicate'.dynamicNames = predicate.dynamicNames := by
  induction h with
  | kept c => rfl
  | turned _ => rfl
  | and _ _ ihl ihr => rw [dynamicNames_and, dynamicNames_and, ihl, ihr]
  | or _ _ ihl ihr => rw [dynamicNames_or, dynamicNames_or, ihl, ihr]

namespace Pipeline

/-- Turning some equalities of a condition into their opposites, or opposites into equalities, does
not change which pipelines are compiled.  In the query the predicate of the condition has the
opposite operators at exactly these places, and everything else is as before, custom fields
included.  Where compilation fails, the two errors differ at most in the operator that they name. -/
theorem compile_opposes {marks : List Bool} {body body' : Expr σ} (h : body.Opposes marks body')
    (registry : FieldRegistry) (earlier later : List (Stage σ R)) :
    InStep
      (fun q q' =>
        (∃ before predicate predicate' after,
          before.length = (earlier.filterMap Stage.condition?).length ∧
          predicate.Opposes marks predicate' ∧
          q.filters = before ++ predicate :: after ∧
          q'.filters = before ++ predicate' :: after) ∧
        q'.directive = { q.directive with filterText := q'.filterText })
      Error.OfOpposites
      ((ofDeclared (earlier ++ .filter body :: later)).compile registry)
      ((ofDeclared (earlier ++ .filter body' :: later)).compile registry) := by
  have hstages : List.Forall₂ Stage.AgreesWith
      (ofDeclared (earlier ++ .filter body :: later)).declared
      (ofDeclared (earlier ++ .filter body' :: later)).declared := by
    rw [declared_ofDeclared, declared_ofDeclared]
    exact (Stage.AgreesWith.filter body body').around earlier later
  have hconditions := InStep.mapM_at (earlier.filterMap Stage.condition?)
    (later.filterMap Stage.condition?) (h.inStep_toPredicate registry) .same
  rw [← conditions_ofDeclared_append, ← conditions_ofDeclared_append] at hconditions
  refine (inStep_compile .same hstages hconditions).imp ?_
  rintro q _ ⟨_, ⟨before, predicate, predicate', after, hlength, hopposes, hq, rfl⟩, rfl⟩
  refine ⟨⟨before, predicate, predicate', after, hlength, hopposes, hq, rfl⟩, ?_⟩
  refine CompiledQuery.directive_withFilters ?_
  simp only [hq, List.map_append, List.map_cons, hopposes.dynamicNames_eq]

/-- Issues named by a text or resolved with many votes, or the ones named otherwise or open. -/
def crashOrResolvedSample (named resolved : BinaryOp) : Expr Unit :=
  .binary .orElse (.binary named (.field "Summary") (.constant (.text "crash")))
    (.binary .andAlso (.binary resolved (.field "Resolution") (.constant .null))
      (.binary .greaterThan (.field "Votes") (.constant (.int 3))))

/-- Both equalities of the sample are turned to their opposites, the comparison by order stays, and
the query differs in nothing else. -/
theorem compile_opposes_crashOrResolved :
    (crashOrResolvedSample .equal .notEqual).Opposes [true, true, false]
      (crashOrResolvedSample .notEqual .equal) ∧
    ∃ q q' predicate predicate',
      outcome ((ofDeclared ([] ++ .filter (crashOrResolvedSample .equal .notEqual) :: [.take 3]) :
        Pipeline Unit Unit).compile .issue) ⟨(), []⟩ = (.ok q, ⟨(), []⟩) ∧
      outcome ((ofDeclared ([] ++ .filter (crashOrResolvedSample .notEqual .equal) :: [.take 3]) :
        Pipeline Unit Unit).compile .issue) ⟨(), []⟩ = (.ok q', ⟨(), []⟩) ∧
      q.filterText = "(Summary ~ \"crash\" or (Resolution is not null and Votes > 3))" ∧
      q.filters = [predicate] ∧ q'.filters = [predicate'] ∧
      predicate.Opposes [true, true, false] predicate' ∧
      q'.directive = { q.directive with filterText := q'.filterText } := by
  have h : (crashOrResolvedSample .equal .notEqual).Opposes ([true] ++ ([true] ++ [false]))
      (crashOrResolvedSample .notEqual .equal) :=
    .joined rfl (.turned rfl) (.joined rfl (.turned rfl) (.kept nofun))
  obtain ⟨q, predicate, hq, hsingle, htext⟩ : ∃ q predicate,
      outcome ((ofDeclared ([] ++ .filter (crashOrResolvedSample .equal .notEqual) ::
        [.take 3]) : Pipeline Unit Unit).compile .issue) ⟨(), []⟩ = (.ok q, ⟨(), []⟩) ∧
      q.filters = [predicate] ∧
      q.filterText = "(Summary ~ \"crash\" or (Resolution is not null and Votes > 3))" :=
    ⟨_, _, rfl, rfl, by decide⟩
  obtain ⟨hresult, hstate⟩ := compile_opposes (R := Unit) h .issue [] [.take 3] ⟨(), []⟩
  rw [hq] at hresult hstate
  rcases hq' : outcome (compile .issue (ofDeclared ([] ++ .filter _ :: _))) _ with ⟨r, c⟩
  rw [hq'] at hresult hstate
  obtain rfl : (⟨(), []⟩ : Context Unit) = c := hstate
  cases hresult with
  | ok halike =>
    obtain ⟨⟨before, _, predicate', after, hlength, hopposes, hfilters, hfilters'⟩,
      hdirective⟩ := halike
    obtain rfl : before = [] := List.length_eq_zero_iff.mp hlength
    obtain ⟨rfl, rfl⟩ := List.cons.inj (hsingle.symm.trans hfilters)
    exact ⟨h, q, _, predicate, predicate', hq, hq', htext, hsingle, hfilters', hopposes,
      hdirective⟩

end Pipeline

end IssueQuery

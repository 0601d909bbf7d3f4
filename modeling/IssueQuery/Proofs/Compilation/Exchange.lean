import IssueQuery.Proofs.Compilation.Lockstep
import IssueQuery.Proofs.Compilation.Translation
import IssueQuery.Proofs.Text.Tokens

/-!
# One text in place of another

Two conditions may differ in a single text of the caller: a literal that a field is compared with,
or the name of a field that is looked up (`Expr.Exchanges`).  If one of them is compiled, so is the
other, and the two queries differ in nothing but that text between its quotes
(`Pipeline.exchanged_of_outcome_toDirective`).

The text is not escaped.  So a reader of the two queries sees the same query around one exchanged
literal exactly when both texts are contained and no earlier literal is still open
(`Pipeline.toDirective_exchange_reads_alike_iff`); any other text changes what is read around it.
-/

namespace IssueQuery

variable {σ R : Type} {registry : FieldRegistry} {s t : String}

/-! ### Texts in expressions -/

namespace Expr

/-- The expression does not read the record, always has the given value, and leaves the host as it
is; a constant is the plainest case. -/
def IsConstantly (e : Expr σ) (v : Value) : Prop :=
  e.dependsOnRecord = false ∧ ∀ host, outcome e.evaluate host = (.ok v, host)

/-- The expression is, under conversions, a field that is looked up by the given name. -/
inductive IsIndexedBy (name : String) : Expr σ → Prop where
  | indexer {key : Expr σ} {v : Value} :
    key.IsConstantly v → v.fieldName = name → IsIndexedBy name (.indexer key)
  | convert {inner : Expr σ} : IsIndexedBy name inner → IsIndexedBy name (.convert inner)

end Expr

/-- Whether the operator joins two conditions. -/
def BinaryOp.isConnective : BinaryOp → Bool
  | andAlso | orElse => true
  | _ => false

/-- The connectives are conjunction and disjunction. -/
lemma BinaryOp.isConnective_iff {op : BinaryOp} :
    op.isConnective = true ↔ op = .andAlso ∨ op = .orElse := by
  cases op <;> simp [isConnective]

/-- No comparison is a connective. -/
lemma BinaryOp.isConnective_of_isComparison {op : BinaryOp} (hop : op.isComparison = true) :
    op.isConnective = false := by
  revert hop
  cases op <;> decide

namespace Expr

/-- The second condition is the first with the text `t` in one place where the first has `s`: on the
right side of a comparison as a literal of the same kind, or on the left side as the name of a field
that is looked up.  The comparison stands anywhere within conjunctions and disjunctions. -/
inductive Exchanges (s t : String) : Expr σ → Expr σ → Prop where
  | operand {op : BinaryOp} {left right right' : Expr σ} {v w : Value} :
    op.isComparison = true → right.IsConstantly v → right'.IsConstantly w → v.type = w.type →
      v.text? = some s → w.text? = some t →
        Exchanges s t (.binary op left right) (.binary op left right')
  | field {op : BinaryOp} {left left' right : Expr σ} :
    op.isComparison = true → left.IsIndexedBy s → left'.IsIndexedBy t →
      Exchanges s t (.binary op left right) (.binary op left' right)
  | inLeft {op : BinaryOp} {left left' right : Expr σ} :
    op.isConnective = true → Exchanges s t left left' →
      Exchanges s t (.binary op left right) (.binary op left' right)
  | inRight {op : BinaryOp} {left right right' : Expr σ} :
    op.isConnective = true → Exchanges s t right right' →
      Exchanges s t (.binary op left right) (.binary op left right')

/-! ### Folding -/

/-- A constant always has its own value. -/
lemma isConstantly_constant (v : Value) : (constant v : Expr σ).IsConstantly v :=
  ⟨rfl, fun _ => rfl⟩

/-- What always has a value folds to it and leaves the host as it is. -/
lemma IsConstantly.outcome_fold {e : Expr σ} {v : Value} (h : e.IsConstantly v) (host : σ) :
    outcome e.fold host = (.ok (.constant v), host) := by
  rw [fold_of_closed h.1, outcome_map, h.2]
  rfl

/-- A field that is looked up reads the record, although its name does not. -/
lemma IsIndexedBy.dependsOnRecord {name : String} {e : Expr σ} (h : e.IsIndexedBy name) :
    e.dependsOnRecord = true := by
  induction h with
  | indexer _ _ => rfl
  | convert _ ih => exact ih

variable (registry) in
/-- A field that is looked up by a name folds to one that refers to it. -/
lemma IsIndexedBy.exists_outcome_fold {name : String} {e : Expr σ} (h : e.IsIndexedBy name) :
    ∃ folded, (∀ host, outcome e.fold host = (.ok folded, host)) ∧
      folded.RefersTo registry (.dynamic name) := by
  induction h with
  | @indexer key v hkey hname =>
    refine ⟨.indexer (.constant v), fun host => ?_, hname ▸ .dynamic v⟩
    rw [fold, outcome_map, hkey.outcome_fold]
    rfl
  | @convert inner hinner ih =>
    obtain ⟨folded, hfold, hrefers⟩ := ih
    refine ⟨.convert folded, fun host => ?_, .convert hrefers⟩
    rw [fold_convert_of_open hinner.dependsOnRecord, outcome_map, hfold]
    rfl

/-- What refers to a field reads the record. -/
lemma RefersTo.dependsOnRecord {e : Expr σ} {field : ResolvedField}
    (h : e.RefersTo registry field) : e.dependsOnRecord = true := by
  induction h with
  | member name => rfl
  | dynamic v => rfl
  | convert _ ih => exact ih

/-- An expression refers to one field only. -/
lemma RefersTo.eq {e : Expr σ} {field field' : ResolvedField} (h : e.RefersTo registry field)
    (h' : e.RefersTo registry field') : field = field' := by
  have hresolved : registry.resolve "" e = .ok field := resolve_eq_ok_iff.mpr h
  rw [resolve_eq_ok_iff.mpr h', Except.ok.injEq] at hresolved
  exact hresolved.symm

end Expr

/-! ### Comparisons -/

/-- How equality of a field with a text of the given kind is asked for. -/
def ResolvedField.textPolicy (field : ResolvedField) (type : ValueType) : EqualityPolicy :=
  match field with
  | member mapping => if type = .exact then .equals else mapping.policy
  | dynamic _ => if type = .text then .contains else .equals

namespace Comparison

variable {op : BinaryOp} {left right : Expr σ} {c : Comparison} {field : ResolvedField}
  {v w : Value} {make : ResolvedField → Value → Except Error Comparison}

/-- A comparison comes from an operator that the query language has, a field on the left side, and a
literal on the right side that the operator takes. -/
lemma ofOperands_eq_ok_iff :
    ofOperands registry op left right = .ok c ↔
      ∃ make field v, ofOperator? op = some make ∧ left.RefersTo registry field ∧
        right.literalOperand op = .ok v ∧ make field v = .ok c := by
  rw [ofOperands]
  cases ofOperator? op with
  | none => simp
  | some make =>
    simp only [except_bind_eq_ok_iff, Expr.resolve_eq_ok_iff, Option.some.injEq]
    constructor
    · rintro ⟨field, hfield, v, hv, hmake⟩
      exact ⟨make, field, v, rfl, hfield, hv, hmake⟩
    · rintro ⟨_, field, v, rfl, hfield, hv, hmake⟩
      exact ⟨field, hfield, v, hv, hmake⟩

/-- Every operator of the query language asks for equality or for an order. -/
lemma eq_of_ofOperator? (h : ofOperator? op = some make) :
    (∃ positive, make = fun field v => .ok (ofEquality positive field v)) ∨
      ∃ operator, make = ofOrdering op operator := by
  cases op with
  | equal => exact .inl ⟨true, (Option.some.inj h).symm⟩
  | notEqual => exact .inl ⟨false, (Option.some.inj h).symm⟩
  | greaterThan => exact .inr ⟨_, (Option.some.inj h).symm⟩
  | greaterThanOrEqual => exact .inr ⟨_, (Option.some.inj h).symm⟩
  | lessThan => exact .inr ⟨_, (Option.some.inj h).symm⟩
  | lessThanOrEqual => exact .inr ⟨_, (Option.some.inj h).symm⟩
  | _ => simp [ofOperator?] at h

/-- A text that is not empty is compared as it is, by equality. -/
lemma ofEquality_of_text? {positive : Bool} (hs : s ≠ "") (hv : v.text? = some s) :
    ofEquality positive field v =
      ⟨field.reference, .equality (field.textPolicy v.type) positive, .literal v⟩ := by
  have hnull : v.isNull = false := by cases v <;> simp_all [Value.text?, Value.isNull]
  have hempty : v.isEmptyText = false := by
    cases v <;> simp_all [Value.text?, Value.isEmptyText]
  cases field <;> simp [ofEquality, ResolvedField.textPolicy, hnull, hempty]

/-- Two texts of one kind are compared by the same operator. -/
lemma make_operand (hmake : ofOperator? op = some make) (hs : s ≠ "") (ht : t ≠ "")
    (htype : v.type = w.type) (hv : v.text? = some s) (hw : w.text? = some t)
    (h : make field v = .ok c) :
    ∃ operator, c = ⟨field.reference, operator, .literal v⟩ ∧
      make field w = .ok ⟨field.reference, operator, .literal w⟩ := by
  rcases eq_of_ofOperator? hmake with ⟨positive, rfl⟩ | ⟨operator, rfl⟩
  · rw [Except.ok.injEq, ofEquality_of_text? hs hv] at h
    refine ⟨_, h.symm, congrArg Except.ok ?_⟩
    rw [ofEquality_of_text? ht hw, htype]
  · have hvnull : v.isNull = false := by cases v <;> simp_all [Value.text?, Value.isNull]
    have hwnull : w.isNull = false := by cases w <;> simp_all [Value.text?, Value.isNull]
    simp only [ofOrdering, hvnull, Bool.false_eq_true, if_false, Except.ok.injEq] at h
    exact ⟨operator, h.symm, by simp [ofOrdering, hwnull]⟩

/-- Fields that are looked up are compared by the same operator, whatever their names are. -/
lemma make_dynamic (hmake : ofOperator? op = some make) (h : make (.dynamic s) v = .ok c) :
    ∃ operator operand, c = ⟨.dynamic s, operator, operand⟩ ∧
      make (.dynamic t) v = .ok ⟨.dynamic t, operator, operand⟩ := by
  rcases eq_of_ofOperator? hmake with ⟨positive, rfl⟩ | ⟨operator, rfl⟩
  · exact ⟨_, _, (Except.ok.inj h).symm, rfl⟩
  · cases hnull : v.isNull with
    | true => simp [ofOrdering, hnull] at h
    | false =>
      simp only [ofOrdering, hnull, Bool.false_eq_true, if_false, Except.ok.injEq] at h
      exact ⟨operator, .literal v, h.symm, by simp [ofOrdering, hnull, ResolvedField.reference]⟩

end Comparison

/-! ### Texts of queries -/

/-- The two texts are the same but for the quoted text, `s` in the one and `t` in the other. -/
def ExchangedIn (s t text text' : String) : Prop :=
  ∃ front back, text = front ++ quoted s ++ back ∧ text' = front ++ quoted t ++ back

/-- What stands around an exchanged text does not matter. -/
lemma ExchangedIn.around {text text' : String} (h : ExchangedIn s t text text')
    (before after : String) :
    ExchangedIn s t (before ++ text ++ after) (before ++ text' ++ after) := by
  obtain ⟨front, back, rfl, rfl⟩ := h
  exact ⟨before ++ front, back ++ after, by simp [String.append_assoc],
    by simp [String.append_assoc]⟩

/-- What stands after an exchanged text does not matter. -/
lemma ExchangedIn.append {text text' : String} (h : ExchangedIn s t text text') (after : String) :
    ExchangedIn s t (text ++ after) (text' ++ after) := by
  simpa using h.around "" after

/-- A value that is a text is written between quotation marks. -/
lemma Value.jql_of_text? {v : Value} (h : v.text? = some s) : v.jql = quoted s := by
  cases v <;> simp_all [Value.text?, Value.jql]

/-- A separated list is what is around one of its elements together with the element. -/
lemma exists_intercalate_eq (separator : String) (before after : List String) :
    ∃ front back, ∀ text,
      String.intercalate separator (before ++ text :: after) = front ++ text ++ back := by
  induction before with
  | nil =>
    cases after with
    | nil => exact ⟨"", "", fun text => by simp [String.intercalate_singleton]⟩
    | cons next after =>
      refine ⟨"", separator ++ String.intercalate separator (next :: after), fun text => ?_⟩
      simp [String.intercalate_cons_cons, String.append_assoc]
  | cons first before ih =>
    obtain ⟨front, back, heq⟩ := ih
    refine ⟨first ++ separator ++ front, back, fun text => ?_⟩
    rw [List.cons_append, String.intercalate_cons_of_ne_nil (by simp), heq]
    simp [String.append_assoc]

/-! ### Conditions -/

/-- The predicate of two joined conditions. -/
def Predicate.ofConnective (op : BinaryOp) (left right : Predicate) : Predicate :=
  if op = .andAlso then .and left right else .or left right

/-- A connective joins two predicates to a conjunction or to a disjunction. -/
lemma Predicate.ofConnective_cases (op : BinaryOp) :
    ofConnective op = .and ∨ ofConnective op = .or := by
  by_cases hop : op = .andAlso
  · exact .inl (funext₂ fun _ _ => if_pos hop)
  · exact .inr (funext₂ fun _ _ => if_neg hop)

/-- The text of joined predicates has both texts in parentheses, with a word between them. -/
lemma Predicate.exists_jql_ofConnective (op : BinaryOp) :
    ∃ word, ∀ left right : Predicate,
      (ofConnective op left right).jql = "(" ++ left.jql ++ word ++ right.jql ++ ")" := by
  rcases ofConnective_cases op with hop | hop
  · exact ⟨" and ", fun left right => by rw [hop, jql]⟩
  · exact ⟨" or ", fun left right => by rw [hop, jql]⟩

/-- Joined conditions are translated one after the other, and then their predicates are joined. -/
lemma Predicate.ofExpr_joined {op : BinaryOp} (hop : op.isConnective = true)
    (left right : Expr σ) :
    ofExpr registry (.binary op left right) = (do
      let l ← ofExpr registry left
      let r ← ofExpr registry right
      return ofConnective op l r) := by
  rcases BinaryOp.isConnective_iff.mp hop with rfl | rfl
  · rfl
  · rfl

/-- Any other operator is translated as a comparison. -/
lemma Predicate.ofExpr_binary {op : BinaryOp} (hop : op.isConnective = false)
    (left right : Expr σ) :
    ofExpr registry (.binary op left right) =
      comparison <$> Comparison.ofOperands registry op left right := by
  cases op with
  | andAlso => simp [BinaryOp.isConnective] at hop
  | orElse => simp [BinaryOp.isConnective] at hop
  | _ => rfl

/-- Joined conditions are translated exactly when both are. -/
lemma Predicate.ofExpr_connective_eq_ok_iff {op : BinaryOp} {left right : Expr σ}
    {predicate : Predicate} (hop : op.isConnective = true) :
    ofExpr registry (.binary op left right) = .ok predicate ↔
      ∃ l r, ofExpr registry left = .ok l ∧ ofExpr registry right = .ok r ∧
        predicate = ofConnective op l r := by
  rw [ofExpr_joined hop]
  simp only [except_bind_eq_ok_iff, pure, Except.pure, Except.ok.injEq]
  constructor
  · rintro ⟨l, hl, r, hr, rfl⟩
    exact ⟨l, r, hl, hr, rfl⟩
  · rintro ⟨l, r, hl, hr, rfl⟩
    exact ⟨l, hl, r, hr, rfl⟩

/-- A comparison is translated exactly when its operands are. -/
lemma Predicate.ofExpr_comparison_eq_ok_iff {op : BinaryOp} {left right : Expr σ}
    {predicate : Predicate} (hop : op.isComparison = true) :
    ofExpr registry (.binary op left right) = .ok predicate ↔
      ∃ c, Comparison.ofOperands registry op left right = .ok c ∧ predicate = .comparison c := by
  rw [ofExpr_binary (BinaryOp.isConnective_of_isComparison hop), except_map_eq_ok_iff]
  simp only [eq_comm]

/-- What translates reads the record. -/
lemma Predicate.dependsOnRecord_of_ofExpr {e : Expr σ} {predicate : Predicate}
    (h : ofExpr registry e = .ok predicate) : e.dependsOnRecord = true := by
  induction e using ofExpr.induct generalizing predicate with
  | case1 left right ihl _ =>
    obtain ⟨l, r, hl, -⟩ := (ofExpr_connective_eq_ok_iff rfl).mp h
    simp [Expr.dependsOnRecord, ihl hl]
  | case2 left right ihl _ =>
    obtain ⟨l, r, hl, -⟩ := (ofExpr_connective_eq_ok_iff rfl).mp h
    simp [Expr.dependsOnRecord, ihl hl]
  | case3 op left right hand hor =>
    rw [ofExpr.eq_3 _ _ _ _ hand hor, except_map_eq_ok_iff] at h
    obtain ⟨c, hc, -⟩ := h
    obtain ⟨make, field, v, -, hfield, -⟩ := Comparison.ofOperands_eq_ok_iff.mp hc
    simp [Expr.dependsOnRecord, hfield.dependsOnRecord]
  | case4 e hand hor hbinary => simp [ofExpr.eq_4 _ _ hand hor hbinary] at h

/-- A condition with an operator is translated after its two sides are folded. -/
lemma translatesTo_binary_iff {op : BinaryOp} {left right : Expr σ} {host host' : σ}
    {predicate : Predicate} :
    TranslatesTo registry (.binary op left right) host predicate host' ↔
      ∃ l host₁ r, outcome left.fold host = (.ok l, host₁) ∧
        outcome right.fold host₁ = (.ok r, host') ∧
        Predicate.ofExpr registry (.binary op l r) = .ok predicate := by
  constructor
  · rintro ⟨folded, hfold, hpredicate⟩
    have hopen : (left.dependsOnRecord || right.dependsOnRecord) = true := by
      have hsame := (Expr.isFolded_of_outcome_fold _ hfold).2
      rwa [Predicate.dependsOnRecord_of_ofExpr hpredicate, eq_comm] at hsame
    simp only [Expr.fold_binary_of_open hopen, outcome_bind_eq_ok_iff, outcome_pure, Prod.mk.injEq,
      Except.ok.injEq] at hfold
    obtain ⟨l, host₁, hl, r, host₂, hr, rfl, rfl⟩ := hfold
    exact ⟨l, host₁, r, hl, hr, hpredicate⟩
  · rintro ⟨l, host₁, r, hl, hr, hpredicate⟩
    have hopen : (left.dependsOnRecord || right.dependsOnRecord) = true := by
      have hreads := Predicate.dependsOnRecord_of_ofExpr hpredicate
      rwa [Expr.dependsOnRecord, (Expr.isFolded_of_outcome_fold _ hl).2,
        (Expr.isFolded_of_outcome_fold _ hr).2] at hreads
    refine ⟨.binary op l r, ?_, hpredicate⟩
    simp only [Expr.fold_binary_of_open hopen, outcome_bind_eq_ok_iff, outcome_pure]
    exact ⟨l, host₁, hl, r, host', hr, rfl⟩

/-! ### Exchange in a condition -/

namespace Comparison

variable {op : BinaryOp} {left left' right right' : Expr σ} {c : Comparison}

/-- A comparison with another text of the same kind on its right side. -/
lemma exchange_operand {v w : Value} (hs : s ≠ "") (ht : t ≠ "") (htype : v.type = w.type)
    (hv : v.text? = some s) (hw : w.text? = some t)
    (h : ofOperands registry op left (.constant v) = .ok c) :
    ∃ c', ofOperands registry op left (.constant w) = .ok c' ∧ ExchangedIn s t c.text c'.text := by
  obtain ⟨make, field, v', hop, hfield, hoperand, hmake⟩ := ofOperands_eq_ok_iff.mp h
  obtain rfl : v = v' := Except.ok.inj hoperand
  obtain ⟨operator, rfl, hmake'⟩ := make_operand hop hs ht htype hv hw hmake
  refine ⟨_, ofOperands_eq_ok_iff.mpr ⟨make, field, w, hop, hfield, rfl, hmake'⟩, ?_⟩
  refine ⟨field.reference.text ++ " " ++ operator.text ++ " ", "", ?_, ?_⟩
  · simp only [text, Operand.text, Value.jql_of_text? hv, String.append_empty]
  · simp only [text, Operand.text, Value.jql_of_text? hw, String.append_empty]

/-- A comparison of another field that is looked up. -/
lemma exchange_field (hleft : left.RefersTo registry (.dynamic s))
    (hleft' : left'.RefersTo registry (.dynamic t))
    (h : ofOperands registry op left right = .ok c) :
    ∃ c', ofOperands registry op left' right = .ok c' ∧ ExchangedIn s t c.text c'.text := by
  obtain ⟨make, field, v, hop, hfield, hoperand, hmake⟩ := ofOperands_eq_ok_iff.mp h
  obtain rfl : field = .dynamic s := hfield.eq hleft
  obtain ⟨operator, operand, rfl, hmake'⟩ := make_dynamic (t := t) hop hmake
  refine ⟨_, ofOperands_eq_ok_iff.mpr ⟨make, _, v, hop, hleft', hoperand, hmake'⟩, ?_⟩
  refine ⟨"", " " ++ operator.text ++ " " ++ operand.text, ?_, ?_⟩
  · simp [text, FieldRef.text, String.append_assoc]
  · simp [text, FieldRef.text, String.append_assoc]

end Comparison

/-- If a condition is translated, so is one with a text exchanged, and the two differ in nothing
else. -/
lemma Expr.Exchanges.translatesTo {condition condition' : Expr σ} {host host' : σ}
    {predicate : Predicate} (hexchange : condition.Exchanges s t condition') (hs : s ≠ "")
    (ht : t ≠ "") (h : TranslatesTo registry condition host predicate host') :
    ∃ predicate', TranslatesTo registry condition' host predicate' host' ∧
      ExchangedIn s t predicate.jql predicate'.jql := by
  induction hexchange generalizing host host' predicate with
  | @operand op left right right' v w hop hright hright' htype hv hw =>
    obtain ⟨l, host₁, r, hl, hr, hpredicate⟩ := translatesTo_binary_iff.mp h
    rw [hright.outcome_fold, Prod.mk.injEq, Except.ok.injEq] at hr
    obtain ⟨rfl, rfl⟩ := hr
    obtain ⟨c, hc, rfl⟩ := (Predicate.ofExpr_comparison_eq_ok_iff hop).mp hpredicate
    obtain ⟨c', hc', htext⟩ := Comparison.exchange_operand hs ht htype hv hw hc
    exact ⟨.comparison c', translatesTo_binary_iff.mpr ⟨l, host₁, .constant w, hl,
      hright'.outcome_fold host₁, (Predicate.ofExpr_comparison_eq_ok_iff hop).mpr ⟨c', hc', rfl⟩⟩,
      htext⟩
  | @field op left left' right hop hleft hleft' =>
    obtain ⟨l, host₁, r, hl, hr, hpredicate⟩ := translatesTo_binary_iff.mp h
    obtain ⟨folded, hfold, hrefers⟩ := hleft.exists_outcome_fold registry
    obtain ⟨folded', hfold', hrefers'⟩ := hleft'.exists_outcome_fold registry
    rw [hfold, Prod.mk.injEq, Except.ok.injEq] at hl
    obtain ⟨rfl, rfl⟩ := hl
    obtain ⟨c, hc, rfl⟩ := (Predicate.ofExpr_comparison_eq_ok_iff hop).mp hpredicate
    obtain ⟨c', hc', htext⟩ := Comparison.exchange_field hrefers hrefers' hc
    exact ⟨.comparison c', translatesTo_binary_iff.mpr ⟨folded', host, r, hfold' host, hr,
      (Predicate.ofExpr_comparison_eq_ok_iff hop).mpr ⟨c', hc', rfl⟩⟩, htext⟩
  | @inLeft op left left' right hop _ ih =>
    obtain ⟨l, host₁, r, hl, hr, hpredicate⟩ := translatesTo_binary_iff.mp h
    obtain ⟨p, q, hp, hq, rfl⟩ := (Predicate.ofExpr_connective_eq_ok_iff hop).mp hpredicate
    obtain ⟨p', ⟨l', hl', hp'⟩, htext⟩ := ih ⟨l, hl, hp⟩
    obtain ⟨word, hjql⟩ := Predicate.exists_jql_ofConnective op
    refine ⟨.ofConnective op p' q, translatesTo_binary_iff.mpr ⟨l', host₁, r, hl', hr,
      (Predicate.ofExpr_connective_eq_ok_iff hop).mpr ⟨p', q, hp', hq, rfl⟩⟩, ?_⟩
    rw [hjql, hjql]
    simpa [String.append_assoc] using htext.around "(" (word ++ q.jql ++ ")")
  | @inRight op left right right' hop _ ih =>
    obtain ⟨l, host₁, r, hl, hr, hpredicate⟩ := translatesTo_binary_iff.mp h
    obtain ⟨p, q, hp, hq, rfl⟩ := (Predicate.ofExpr_connective_eq_ok_iff hop).mp hpredicate
    obtain ⟨q', ⟨r', hr', hq'⟩, htext⟩ := ih ⟨r, hr, hq⟩
    obtain ⟨word, hjql⟩ := Predicate.exists_jql_ofConnective op
    refine ⟨.ofConnective op p q', translatesTo_binary_iff.mpr ⟨l, host₁, r', hl, hr',
      (Predicate.ofExpr_connective_eq_ok_iff hop).mpr ⟨p, q', hp, hq', rfl⟩⟩, ?_⟩
    rw [hjql, hjql]
    simpa [String.append_assoc] using htext.around ("(" ++ p.jql ++ word) ")"

/-! ### Exchange in a pipeline -/

namespace Pipeline

variable {newer older : List (Stage σ R)} {body body' : Expr σ} {c c' : Context σ}

/-- The first pass takes another condition in the place of one and does everything else alike. -/
lemma outcome_foldlM_exchange {draft : Draft σ} (body' : Expr σ)
    (h : outcome ((newer ++ .filter body :: older).foldlM Draft.visit {}) c = (.ok draft, c')) :
    ∃ conditions', outcome ((newer ++ .filter body' :: older).foldlM Draft.visit {}) c =
      (.ok { draft with conditions := conditions' }, c') := by
  have hempty : ({} : Draft σ).SameFrame {} := rfl
  have hstages := (Stage.AgreesWith.filter body body').around newer older
  have hsame : InStep Draft.SameFrame Eq _ _ := Draft.inStep_foldlM (fun _ => rfl) hempty hstages
  obtain ⟨draft', h', hframe⟩ := hsame.exists_ok_right h
  exact ⟨draft'.conditions, by rw [h', ← hframe]⟩

/-- The conditions around one of them, in the order of their declaration. -/
lemma conditions_append_filter (newer older : List (Stage σ R)) (body : Expr σ) :
    (⟨newer ++ .filter body :: older⟩ : Pipeline σ R).conditions =
      older.reverse.filterMap Stage.condition? ++
        body :: newer.reverse.filterMap Stage.condition? := by
  simp [conditions, declared, Stage.condition?, List.filterMap_append]

/-- The second pass translates the exchanged condition in the place of the other. -/
lemma outcome_mapM_exchange {before after : List (Expr σ)} {predicates : List Predicate}
    (hs : s ≠ "") (ht : t ≠ "") (hexchange : body.Exchanges s t body')
    (h : outcome ((before ++ body :: after).mapM (Expr.toPredicate registry)) c =
      (.ok predicates, c')) :
    ∃ earlier p p' later, predicates = earlier ++ p :: later ∧
      outcome ((before ++ body' :: after).mapM (Expr.toPredicate registry)) c =
        (.ok (earlier ++ p' :: later), c') ∧ ExchangedIn s t p.jql p'.jql := by
  rw [outcome_mapM_eq_ok_iff] at h
  obtain ⟨earlier, p, later, c₁, c₂, rfl, hbefore, hbody, hafter⟩ := h.exists_of_append_cons
  obtain ⟨htranslates, hlog⟩ := Expr.outcome_toPredicate_eq_ok_iff.mp hbody
  obtain ⟨p', htranslates', htext⟩ := hexchange.translatesTo hs ht htranslates
  have hbody' := Expr.outcome_toPredicate_eq_ok_iff.mpr ⟨htranslates', hlog⟩
  refine ⟨earlier, p, p', later, rfl, ?_, htext⟩
  rw [outcome_mapM_eq_ok_iff]
  exact hbefore.append (.cons hbody' hafter)

/-- The texts of two queries that differ in one predicate differ as its texts do. -/
lemma exchangedIn_jql {earlier later : List Predicate} {p p' : Predicate}
    {orderClauses : List OrderClause} {maxResults startAt : Option UInt32}
    (h : ExchangedIn s t p.jql p'.jql) :
    ExchangedIn s t
      (⟨earlier ++ p :: later, orderClauses, maxResults, startAt⟩ : CompiledQuery).directive.jql
      (⟨earlier ++ p' :: later, orderClauses, maxResults, startAt⟩ :
        CompiledQuery).directive.jql := by
  obtain ⟨front, back, heq⟩ :=
    exists_intercalate_eq " and " (earlier.map Predicate.jql) (later.map Predicate.jql)
  simp only [Directive.jql, CompiledQuery.directive, CompiledQuery.filterText, Directive.orderText,
    List.map_append, List.map_cons, heq]
  exact (h.around front back).append _

/-- If a pipeline is compiled, so is the one with a text exchanged in a condition, and the two
queries differ in nothing but that text. -/
lemma exchanged_of_outcome_toDirective {d : Directive} (hs : s ≠ "") (ht : t ≠ "")
    (hexchange : body.Exchanges s t body')
    (h : outcome ((⟨newer ++ .filter body :: older⟩ : Pipeline σ R).toDirective registry) c =
      (.ok d, c')) :
    ∃ d', outcome ((⟨newer ++ .filter body' :: older⟩ : Pipeline σ R).toDirective registry) c =
      (.ok d', c') ∧ ExchangedIn s t d.jql d'.jql := by
  obtain ⟨q, hq, rfl⟩ := outcome_toDirective_eq_ok_iff.mp h
  obtain ⟨draft, c₁, predicates, hfirst, hsecond, rfl⟩ := outcome_compile_eq_ok_iff.mp hq
  obtain ⟨conditions', hfirst'⟩ := outcome_foldlM_exchange body' hfirst
  have hconditions : draft.conditions = _ := conditions_eq_of_outcome_foldlM hfirst
  have hconditions' : conditions' = _ := conditions_eq_of_outcome_foldlM hfirst'
  rw [conditions_append_filter] at hconditions hconditions'
  rw [hconditions] at hsecond
  obtain ⟨earlier, p, p', later, rfl, hsecond', htext⟩ :=
    outcome_mapM_exchange hs ht hexchange hsecond
  rw [← hconditions'] at hsecond'
  have hq' := outcome_compile_eq_ok_iff.mpr ⟨_, c₁, _, hfirst', hsecond', rfl⟩
  exact ⟨_, outcome_toDirective_eq_ok_iff.mpr ⟨_, hq', rfl⟩, exchangedIn_jql htext⟩

/-- If a pipeline is compiled, so is the one with a text exchanged in a condition, and the two
queries differ in nothing but that text.  A reader sees the same tokens in both, but for the content
of the one literal, exactly when no literal is open before it and both texts are contained.  In the
same way a single text is read as one literal exactly when it is contained. -/
theorem toDirective_exchange_reads_alike_iff {d : Directive} (hs : s ≠ "") (ht : t ≠ "")
    (hexchange : body.Exchanges s t body')
    (h : outcome ((⟨newer ++ .filter body :: older⟩ : Pipeline σ R).toDirective registry) c =
      (.ok d, c')) :
    (∃ d' front back,
      outcome ((⟨newer ++ .filter body' :: older⟩ : Pipeline σ R).toDirective registry) c =
        (.ok d', c') ∧
      d.jql = front ++ quoted s ++ back ∧ d'.jql = front ++ quoted t ++ back ∧
      (tokens d.jql = tokens front ++ .literal s.toList :: tokens back ∧
          tokens d'.jql = tokens front ++ .literal t.toList :: tokens back ↔
        ClosesLiterals front ∧ Contained s.toList ∧ Contained t.toList)) ∧
    (∀ (v : Value) (text : String) (content : List Char), v.text? = some text →
      (tokens v.jql = [.literal content] ↔ content = text.toList ∧ Contained text.toList)) ∧
    ∀ (name : String) (content : List Char), tokens (FieldRef.dynamic name).text =
      [.literal content] ↔ content = name.toList ∧ Contained name.toList := by
  refine ⟨?_, ?_, ?_⟩
  · obtain ⟨d', h', front, back, hd, hd'⟩ := exchanged_of_outcome_toDirective hs ht hexchange h
    refine ⟨d', front, back, h', hd, hd', ?_⟩
    rw [hd, hd', tokens_around_iff, tokens_around_iff]
    constructor
    · rintro ⟨⟨hfront, hs⟩, -, ht⟩
      exact ⟨hfront, hs, ht⟩
    · rintro ⟨hfront, hs, ht⟩
      exact ⟨⟨hfront, hs⟩, hfront, ht⟩
  · intro v text content hv
    rw [Value.jql_of_text? hv, tokens_quoted_eq_iff]
  · intro name content
    exact tokens_quoted_eq_iff

/-- Issues with the given summary. -/
def summarySample (summary : String) : Pipeline Unit Unit :=
  ⟨[.filter (.binary .equal (.field "Summary") (.constant (.text summary)))]⟩

/-- A summary with quotation marks inside is not read as one literal, so the two queries are not
read alike. -/
theorem toDirective_exchange_reads_alike_iff_summary :
    ∃ d' front back, outcome ((summarySample "x\" or \"y").toDirective .issue) ⟨(), []⟩ =
        (.ok d', ⟨(), []⟩) ∧
      "Summary ~ \"z\"" = front ++ quoted "z" ++ back ∧
      d'.jql = front ++ quoted "x\" or \"y" ++ back ∧
      ¬ (tokens "Summary ~ \"z\"" = tokens front ++ .literal ['z'] :: tokens back ∧
        tokens d'.jql = tokens front ++ .literal "x\" or \"y".toList :: tokens back) := by
  have h : outcome ((⟨[] ++ .filter (.binary .equal (.field "Summary") (.constant (.text "z"))) ::
      []⟩ : Pipeline Unit Unit).toDirective .issue) ⟨(), []⟩ =
      (.ok ⟨"Summary ~ \"z\"", [], none, none, []⟩, ⟨(), []⟩) := by
    cbv
  have hexchange : Expr.Exchanges "z" "x\" or \"y"
      (.binary .equal (.field "Summary") (.constant (.text "z")) : Expr Unit)
      (.binary .equal (.field "Summary") (.constant (.text "x\" or \"y"))) :=
    .operand rfl (Expr.isConstantly_constant _) (Expr.isConstantly_constant _) rfl rfl rfl
  have hopen : ¬ Contained "x\" or \"y".toList := by
    intro hcontained
    have hread := (tokens_quoted_eq_iff (s := "x\" or \"y")).mpr ⟨rfl, hcontained⟩
    revert hread
    decide
  obtain ⟨⟨d', front, back, h', hd, hd', hiff⟩, -, -⟩ :=
    toDirective_exchange_reads_alike_iff (by decide) (by decide) hexchange h
  exact ⟨d', front, back, h', hd, hd', fun halike => hopen (hiff.mp halike).2.2⟩

/-- A summary with a quote in it ends its literal, and what comes behind the quote is read as a part
of the query.  No exchange of one literal makes it the query for another summary. -/
theorem toDirective_summary_ends_literal :
    ∃ d d', outcome ((summarySample "x\" or \"y").toDirective .issue) ⟨(), []⟩ =
        (.ok d, ⟨(), []⟩) ∧
      outcome ((summarySample "z").toDirective .issue) ⟨(), []⟩ = (.ok d', ⟨(), []⟩) ∧
      tokens d.jql = "Summary ~ ".toList.map .symbol ++ .literal ['x'] ::
        (" or ".toList.map .symbol ++ [.literal ['y']]) ∧
      tokens d'.jql = "Summary ~ ".toList.map .symbol ++ [.literal ['z']] ∧
      ∀ front back content content', ¬ (tokens d.jql = front ++ .literal content :: back ∧
        tokens d'.jql = front ++ .literal content' :: back) := by
  refine ⟨⟨"Summary ~ \"x\" or \"y\"", [], none, none, []⟩,
    ⟨"Summary ~ \"z\"", [], none, none, []⟩, by cbv, by cbv, by decide, by decide, ?_⟩
  rintro front back content content' ⟨heq, heq'⟩
  have hlength : (tokens "Summary ~ \"x\" or \"y\"").length =
      (tokens "Summary ~ \"z\"").length := by
    have hleft : tokens "Summary ~ \"x\" or \"y\"" = _ := heq
    have hright : tokens "Summary ~ \"z\"" = _ := heq'
    rw [hleft, hright]
    simp
  revert hlength
  decide

end Pipeline

end IssueQuery

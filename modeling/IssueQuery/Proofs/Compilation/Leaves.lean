import IssueQuery.Proofs.Compilation.Exchange
import IssueQuery.Proofs.Expr.NormalForm

/-!
# The leaves of a condition

Conjunctions and disjunctions make up the skeleton of a condition, and its leaves are what they
join.  `Expr.induction_on_leaves` follows the skeleton.  `Expr.forall₂_leaves_of_outcome_fold` says
that folding keeps all of the skeleton that reads the record: the leaves that read it are folded
where they stand.  What does not read the record becomes one leaf, a constant, which is never
translated.
-/

namespace IssueQuery

variable {σ : Type}

/-- Each element of the first list is related to one of the second. -/
lemma exists_mem_of_forall₂ {α β : Type} {R : α → β → Prop} {as : List α} {bs : List β}
    (h : List.Forall₂ R as bs) {a : α} (ha : a ∈ as) : ∃ b ∈ bs, R a b := by
  induction h with
  | nil => simp at ha
  | @cons x b _ bs hfirst _ ih =>
    rcases List.mem_cons.mp ha with rfl | ha
    · exact ⟨b, List.mem_cons_self, hfirst⟩
    · obtain ⟨y, hy, hrelated⟩ := ih ha
      exact ⟨y, List.mem_cons_of_mem b hy, hrelated⟩

namespace Expr

/-- The expression is neither a conjunction nor a disjunction. -/
def IsLeaf (e : Expr σ) : Prop :=
  ∀ op left right, op.isConnective = true → e ≠ binary op left right

/-- The operator of a leaf is no connective. -/
lemma IsLeaf.isConnective_eq {op : BinaryOp} {left right : Expr σ}
    (h : (binary op left right).IsLeaf) : op.isConnective = false := by
  by_contra hop
  exact h op left right (by simpa using hop) rfl

/-- A constant is a leaf. -/
lemma isLeaf_constant (v : Value) : (constant v : Expr σ).IsLeaf := nofun

/-- What holds of leaves, and of joined conditions when it holds of both sides, holds of every
condition. -/
@[elab_as_elim]
theorem induction_on_leaves {P : Expr σ → Prop} (e : Expr σ) (leaf : ∀ e, e.IsLeaf → P e)
    (joined : ∀ op left right, op.isConnective = true → P left → P right →
      P (binary op left right)) : P e := by
  induction e using leaves.induct with
  | case1 left right ihl ihr => exact joined .andAlso left right rfl ihl ihr
  | case2 left right ihl ihr => exact joined .orElse left right rfl ihl ihr
  | case3 e hand hor =>
    refine leaf e ?_
    rintro op left right hop rfl
    rcases BinaryOp.isConnective_iff.mp hop with rfl | rfl
    · exact hand left right rfl
    · exact hor left right rfl

/-- Joined conditions have the leaves of the left side and then those of the right side. -/
lemma leaves_joined {op : BinaryOp} (hop : op.isConnective = true) (left right : Expr σ) :
    (binary op left right).leaves = left.leaves ++ right.leaves := by
  rcases BinaryOp.isConnective_iff.mp hop with rfl | rfl
  · rfl
  · rfl

/-- A leaf has no leaves but itself. -/
lemma IsLeaf.leaves_eq {e : Expr σ} (he : e.IsLeaf) : e.leaves = [e] :=
  leaves.eq_3 e (fun left right => he .andAlso left right rfl)
    fun left right => he .orElse left right rfl

/-! ### Folding -/

/-- A leaf folds to a leaf. -/
lemma IsLeaf.of_outcome_fold {e e' : Expr σ} {s s' : σ} (he : e.IsLeaf)
    (h : outcome e.fold s = (.ok e', s')) : e'.IsLeaf := by
  rcases (outcome_fold_eq_ok_iff e).mp h with _ | ⟨-, hnode, -⟩
  · exact isLeaf_constant _
  · rintro op left right hop rfl
    cases hnode
    exact he op _ _ hop rfl

/-- A condition reads the record exactly when one of its leaves does. -/
lemma any_leaves_dependsOnRecord (e : Expr σ) :
    e.leaves.any dependsOnRecord = e.dependsOnRecord := by
  induction e using induction_on_leaves with
  | leaf e he => rw [he.leaves_eq, List.any_cons, List.any_nil, Bool.or_false]
  | joined op left right hop ihl ihr =>
    rw [leaves_joined hop, List.any_append, ihl, ihr, dependsOnRecord]

/-- A condition that does not read the record has no leaf that does. -/
lemma filter_leaves_of_closed {e : Expr σ} (he : e.dependsOnRecord = false) :
    e.leaves.filter dependsOnRecord = [] := by
  rw [← any_leaves_dependsOnRecord, List.any_eq_false] at he
  exact List.filter_eq_nil_iff.mpr he

/-- The leaves of a condition that read the record fold, one by one, to the leaves of the folded
condition that do. -/
lemma forall₂_leaves_of_outcome_fold {e e' : Expr σ} {s s' : σ}
    (h : outcome e.fold s = (.ok e', s')) :
    List.Forall₂ (fun leaf leaf' => ∃ s s', outcome leaf.fold s = (.ok leaf', s'))
      (e.leaves.filter dependsOnRecord) (e'.leaves.filter dependsOnRecord) := by
  have hsame := (isFolded_of_outcome_fold e h).2
  induction e using induction_on_leaves generalizing e' s s' with
  | leaf e he =>
    rw [he.leaves_eq, (he.of_outcome_fold h).leaves_eq, List.filter_singleton,
      List.filter_singleton, hsame]
    cases e.dependsOnRecord with
    | false => exact .nil
    | true => exact .cons ⟨s, s', h⟩ .nil
  | joined op left right hop ihl ihr =>
    cases hopen : (binary op left right).dependsOnRecord with
    | false =>
      rw [filter_leaves_of_closed hopen, filter_leaves_of_closed (hsame.trans hopen)]
      exact .nil
    | true =>
      obtain ⟨left', right', s₁, hleft, hright, rfl⟩ := (outcome_fold_binary_eq_ok_iff hopen).mp h
      rw [leaves_joined hop, leaves_joined hop, List.filter_append, List.filter_append]
      exact List.rel_append (ihl hleft (isFolded_of_outcome_fold left hleft).2)
        (ihr hright (isFolded_of_outcome_fold right hright).2)

/-- A leaf that reads the record is folded to one of the folded condition. -/
lemma exists_leaf_of_outcome_fold {e e' leaf : Expr σ} {s s' : σ}
    (h : outcome e.fold s = (.ok e', s')) (hleaf : leaf ∈ e.leaves)
    (hopen : leaf.dependsOnRecord = true) :
    ∃ leaf' ∈ e'.leaves, ∃ s s', outcome leaf.fold s = (.ok leaf', s') := by
  obtain ⟨leaf', hleaf', hfold⟩ := exists_mem_of_forall₂ (forall₂_leaves_of_outcome_fold h)
    (List.mem_filter.mpr ⟨hleaf, hopen⟩)
  exact ⟨leaf', List.mem_of_mem_filter hleaf', hfold⟩

/-- A leaf of the folded condition that reads the record is one of the condition, folded. -/
lemma exists_leaf_of_mem_folded {e e' leaf' : Expr σ} {s s' : σ}
    (h : outcome e.fold s = (.ok e', s')) (hleaf' : leaf' ∈ e'.leaves)
    (hopen : leaf'.dependsOnRecord = true) :
    ∃ leaf ∈ e.leaves, ∃ s s', outcome leaf.fold s = (.ok leaf', s') := by
  obtain ⟨leaf, hleaf, hfold⟩ := exists_mem_of_forall₂ (forall₂_leaves_of_outcome_fold h).flip
    (List.mem_filter.mpr ⟨hleaf', hopen⟩)
  exact ⟨leaf, List.mem_of_mem_filter hleaf, hfold⟩

end Expr

end IssueQuery

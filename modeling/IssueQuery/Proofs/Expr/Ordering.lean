import IssueQuery.Proofs.Numeric.Conversion
import IssueQuery.Proofs.Outcome

/-!
# Whole numbers compared by order

Equality compares whole numbers as they are.  An order compares the floating-point numbers that they
are converted to, and these have 53 significant bits: two different numbers may become one, the
first time at `2 ^ 53 + 1` (`Expr.evaluate_loses_order`).  The order is the right one exactly when
that does not happen, and so for all numbers up to `2 ^ 53` (`Expr.evaluate_order_exact_iff`).
-/

namespace IssueQuery

variable {σ : Type}

/-! ### Values -/

/-- A 64-bit number becomes the nearest number with 53 significant bits. -/
lemma denotesInt_number (n : Int64) : DenotesInt (.ofInt n.toInt) (nearestShort n.toInt) := by
  have hlow := n.le_toInt
  have hhigh := n.toInt_lt
  exact denotesInt_ofInt (by omega)

/-- Whole numbers are compared after they are rounded. -/
lemma Value.compare?_int (a b : Int64) :
    (Value.int a).compare? (.int b) =
      some (compare (nearestShort a.toInt) (nearestShort b.toInt)) :=
  (denotesInt_number a).compareFloats? (denotesInt_number b)

namespace Expr

/-- An operator on two whole numbers. -/
def onInts (op : BinaryOp) (a b : Int64) : Expr σ :=
  .binary op (.constant (.int a)) (.constant (.int b))

/-- The operator is applied to the two numbers, and the host has nothing to do. -/
lemma outcome_evaluate_onInts (op : BinaryOp) (a b : Int64) (host : σ) :
    outcome (onInts op a b).evaluate host = (op.apply (.int a) (.int b), host) := by
  rw [onInts, evaluate, evaluate, evaluate, pure_bind, pure_bind, outcome_liftExcept]

/-- The four comparisons of two whole numbers by order come out as `order` says. -/
structure OrdersAs (a b : Int64) (host : σ) (order : Ordering) : Prop where
  greaterThan : outcome (onInts .greaterThan a b).evaluate host = (.ok (.bool order.isGT), host)
  greaterThanOrEqual :
    outcome (onInts .greaterThanOrEqual a b).evaluate host = (.ok (.bool order.isGE), host)
  lessThan : outcome (onInts .lessThan a b).evaluate host = (.ok (.bool order.isLT), host)
  lessThanOrEqual :
    outcome (onInts .lessThanOrEqual a b).evaluate host = (.ok (.bool order.isLE), host)

variable {a b : Int64} {host : σ}

/-- The comparisons show which order it is. -/
lemma OrdersAs.unique {order order' : Ordering} (h : OrdersAs a b host order)
    (h' : OrdersAs a b host order') : order = order' := by
  have hgreater := h.greaterThan.symm.trans h'.greaterThan
  have hless := h.lessThan.symm.trans h'.lessThan
  cases order <;> cases order' <;> simp_all

/-- Comparisons by order see the numbers rounded to 53 significant bits. -/
lemma ordersAs_nearestShort (a b : Int64) (host : σ) :
    OrdersAs a b host (compare (nearestShort a.toInt) (nearestShort b.toInt)) := by
  have hcomparison : ∀ (op : BinaryOp) holds, op.comparison holds (.int a) (.int b) =
      .ok (.bool (holds (compare (nearestShort a.toInt) (nearestShort b.toInt)))) := by
    intro op holds
    rw [BinaryOp.comparison, Value.compare?_int]
  exact {
    greaterThan := by rw [outcome_evaluate_onInts, BinaryOp.apply, hcomparison]
    greaterThanOrEqual := by rw [outcome_evaluate_onInts, BinaryOp.apply, hcomparison]
    lessThan := by rw [outcome_evaluate_onInts, BinaryOp.apply, hcomparison]
    lessThanOrEqual := by rw [outcome_evaluate_onInts, BinaryOp.apply, hcomparison] }

/-- Two whole numbers are compared by order as the nearest numbers with 53 significant bits, and by
equality as they are.  The order is that of the numbers themselves exactly when they are equal or
do not become one number; numbers up to `2 ^ 53` never do. -/
theorem evaluate_order_exact_iff (a b : Int64) (host : σ) :
    OrdersAs a b host (compare (nearestShort a.toInt) (nearestShort b.toInt)) ∧
    outcome (onInts .equal a b).evaluate host = (.ok (.bool (decide (a = b))), host) ∧
    (OrdersAs a b host (compare a.toInt b.toInt) ↔
      a = b ∨ nearestShort a.toInt ≠ nearestShort b.toInt) ∧
    (a.toInt.natAbs ≤ 2 ^ 53 ∧ b.toInt.natAbs ≤ 2 ^ 53 →
      OrdersAs a b host (compare a.toInt b.toInt)) := by
  have hrounded := ordersAs_nearestShort a b host
  have hiff : OrdersAs a b host (compare a.toInt b.toInt) ↔
      a = b ∨ nearestShort a.toInt ≠ nearestShort b.toInt := by
    rw [← Int64.toInt_inj, ← compare_nearestShort_eq_iff]
    constructor
    · exact hrounded.unique
    · intro hsame
      rwa [hsame] at hrounded
  refine ⟨hrounded, outcome_evaluate_onInts _ a b host, hiff, ?_⟩
  rintro ⟨ha, hb⟩
  rwa [nearestShort_eq_self ha, nearestShort_eq_self hb] at hrounded

/-- The first whole number that does not fit into 53 bits is not told from the one before it by
order, but it is by equality. -/
theorem evaluate_loses_order :
    (9007199254740992 : Int64) < 9007199254740993 ∧
      outcome (onInts .greaterThan 9007199254740993 9007199254740992).evaluate () =
        (.ok (.bool false), ()) ∧
      outcome (onInts .lessThan 9007199254740993 9007199254740992).evaluate () =
        (.ok (.bool false), ()) ∧
      outcome (onInts .equal 9007199254740993 9007199254740992).evaluate () =
        (.ok (.bool false), ()) := by
  refine ⟨by decide, ?_, ?_, ?_⟩
  · rfl
  · rfl
  · rfl

end Expr

end IssueQuery

import IssueQuery.Proofs.Outcome

/-!
# Arithmetic on whole numbers

An expression that is built from whole numbers by the five arithmetic operators is computed exactly
or not at all.  `Expr.ExactlyIs` says which whole number such an expression comes to when there are
no bounds, and `Expr.Offends` names the operations that 64 bits cannot follow: a divisor is zero, a
result does not fit, or the least number is divided by `-1`, be it for its quotient or for its
remainder.

`Expr.evaluate_arithmetic` puts these together: the value is the exact one if no operation offends,
and otherwise the error is that of the first operation that does, operands before their operator and
from left to right.
-/

namespace IssueQuery

variable {σ : Type}

/-! ### One operation -/

/-- `q` is the quotient of `a` by `b` rounded toward zero, and `r` is what is left, with the sign of
`a`. -/
structure IsDivision (a b q r : Int) : Prop where
  sum : r + b * q = a
  small : r.natAbs < b.natAbs
  nonneg : 0 ≤ a → 0 ≤ r
  nonpos : a ≤ 0 → r ≤ 0

/-- The number is within 64 bits. -/
def Fits (n : Int) : Prop := -2 ^ 63 ≤ n ∧ n < 2 ^ 63

namespace BinaryOp

/-- Whether the operator divides, for the quotient or for the remainder. -/
def divides : BinaryOp → Bool
  | divide | modulo => true
  | _ => false

/-- Whether the operator computes a number. -/
def isArithmetic : BinaryOp → Bool
  | add | subtract | multiply | divide | modulo => true
  | _ => false

/-- The operator takes `a` and `b` to `n`, in whole numbers without bounds. -/
def IsExact (op : BinaryOp) (a b n : Int) : Prop :=
  match op with
  | add => n = a + b
  | subtract => n = a - b
  | multiply => n = a * b
  | divide => ∃ r, IsDivision a b n r
  | modulo => ∃ q, IsDivision a b q n
  | _ => False

/-- Why an operation has no result in 64 bits. -/
inductive Offends (op : BinaryOp) (a b : Int) : Prop where
  | zeroDivisor : op.divides = true → b = 0 → Offends op a b
  | overflow {n : Int} : op.IsExact a b n → ¬ Fits n → Offends op a b
  /-- The remainder would fit, but not the quotient that belongs to it. -/
  | leastByMinusOne : op.divides = true → a = -2 ^ 63 → b = -1 → Offends op a b

end BinaryOp

/-- The division that truncates is the only one. -/
lemma isDivision_iff {a b q r : Int} :
    IsDivision a b q r ↔ b ≠ 0 ∧ a.tdiv b = q ∧ a.tmod b = r := by
  constructor
  · intro h
    have hb : b ≠ 0 := by
      have := h.small
      omega
    refine ⟨hb, ?_⟩
    rcases Int.le_total 0 a with ha | ha
    · have := h.nonneg ha
      exact (Int.tdiv_tmod_unique ha hb).mpr ⟨h.sum, this, by have := h.small; omega⟩
    · have := h.nonpos ha
      exact (Int.tdiv_tmod_unique' ha hb).mpr ⟨h.sum, by have := h.small; omega, this⟩
  · rintro ⟨hb, rfl, rfl⟩
    exact {
      sum := Int.tmod_add_mul_tdiv a b
      small := by
        rw [Int.natAbs_tmod]
        exact Nat.mod_lt _ (by omega)
      nonneg := fun ha => Int.tmod_nonneg b ha
      nonpos := fun ha => ((Int.tdiv_tmod_unique' ha hb).mp ⟨rfl, rfl⟩).2.2 }

/-- The numbers of 64 bits are those that fit. -/
lemma fits_toInt (n : Int64) : Fits n.toInt := ⟨n.le_toInt, n.toInt_lt⟩

/-- A whole number is stored as the 64-bit number that is equal to it. -/
lemma ofInt?_eq_some_iff {n : Int} {m : Int64} : Int64.ofInt? n = some m ↔ m.toInt = n := by
  rw [Int64.ofInt?]
  split_ifs with h
  · constructor
    · rintro ⟨⟩
      exact Int64.toInt_ofIntLE
    · rintro rfl
      rw [Int64.ofIntLE_toInt]
  · simp only [false_iff]
    rintro rfl
    exact h ⟨m.minValue_le_toInt, m.toInt_le⟩

/-- Every number that fits is that of a 64-bit number. -/
lemma exists_toInt_eq {n : Int} (h : Fits n) : ∃ m : Int64, m.toInt = n :=
  ⟨.ofInt n, Int64.toInt_ofInt_of_le h.1 h.2⟩

namespace BinaryOp

variable {op : BinaryOp} {a b : Int}

/-- The operator comes to its exact result, and to nothing where it has none. -/
lemma onInt?_eq_some_iff {n : Int} : op.onInt? a b = some n ↔ op.IsExact a b n := by
  cases op with
  | add | subtract | multiply => simp [onInt?, IsExact, eq_comm]
  | divide | modulo =>
    simp only [onInt?, IsExact, isDivision_iff]
    split_ifs with hb <;> simp [hb]
  | _ => simp [onInt?, IsExact]

/-- An operation has one exact result. -/
lemma IsExact.unique {m n : Int} (hm : op.IsExact a b m) (hn : op.IsExact a b n) : m = n :=
  Option.some.inj ((onInt?_eq_some_iff.mpr hm).symm.trans (onInt?_eq_some_iff.mpr hn))

/-- Only a divisor of zero leaves an operation without an exact result. -/
lemma eq_zero_of_onInt?_eq_none (hop : op.isArithmetic = true) (h : op.onInt? a b = none) :
    op.divides = true ∧ b = 0 := by
  cases op with
  | divide | modulo =>
    refine ⟨rfl, ?_⟩
    by_contra hb
    simp [onInt?, hb] at h
  | add | subtract | multiply => simp [onInt?] at h
  | _ => simp [isArithmetic] at hop

/-- What divides by zero has no exact result. -/
lemma IsExact.ne_zero {n : Int} (h : op.IsExact a b n) (hop : op.divides = true) : b ≠ 0 := by
  cases op with
  | divide | modulo =>
    obtain ⟨_, h⟩ := h
    exact (isDivision_iff.mp h).1
  | _ => simp [divides] at hop

/-- An operation on 64-bit numbers has its exact result, unless it offends. -/
lemma onInt64?_eq_some {a b m : Int64} (h : op.onInt64? a b = some m) :
    op.IsExact a.toInt b.toInt m.toInt ∧ ¬ op.Offends a.toInt b.toInt := by
  rw [onInt64?] at h
  split_ifs at h with hguard
  obtain ⟨n, hn, hm⟩ := Option.bind_eq_some_iff.mp h
  rw [ofInt?_eq_some_iff] at hm
  subst hm
  have hexact := onInt?_eq_some_iff.mp hn
  refine ⟨hexact, ?_⟩
  rintro (⟨hop, hb⟩ | ⟨hother, hfits⟩ | ⟨hop, ha, hb⟩)
  · exact hexact.ne_zero hop hb
  · exact hfits (hexact.unique hother ▸ fits_toInt m)
  · obtain rfl : a = Int64.minValue := Int64.toInt_inj.mp ha
    obtain rfl : b = -1 := Int64.toInt_inj.mp hb
    cases op with
    | divide =>
      have hquotient : m.toInt = 2 ^ 63 := hexact.unique (onInt?_eq_some_iff.mp (by decide))
      exact absurd hquotient (ne_of_lt m.toInt_lt)
    | modulo => exact hguard ⟨rfl, rfl, rfl⟩
    | _ => simp [divides] at hop

/-- Where an arithmetic operator has no result in 64 bits, it offends. -/
lemma offends_of_onInt64?_eq_none {a b : Int64} (hop : op.isArithmetic = true)
    (h : op.onInt64? a b = none) : op.Offends a.toInt b.toInt := by
  rw [onInt64?] at h
  split_ifs at h with hguard
  · obtain ⟨rfl, rfl, rfl⟩ := hguard
    exact .leastByMinusOne rfl rfl rfl
  · cases hn : op.onInt? a.toInt b.toInt with
    | none =>
      obtain ⟨hdivides, hb⟩ := eq_zero_of_onInt?_eq_none hop hn
      exact .zeroDivisor hdivides hb
    | some n =>
      refine .overflow (onInt?_eq_some_iff.mp hn) fun hfits => ?_
      obtain ⟨m, rfl⟩ := exists_toInt_eq hfits
      rw [hn, Option.bind_some, ofInt?_eq_some_iff.mpr rfl] at h
      simp at h

/-- On whole numbers an arithmetic operator does nothing else. -/
lemma apply_int (hop : op.isArithmetic = true) (a b : Int64) :
    op.apply (.int a) (.int b) =
      match op.onInt64? a b with
      | some m => .ok (.int m)
      | none => .error (.integerFailed op a b) := by
  cases op with
  | add | subtract | multiply | divide | modulo => rfl
  | _ => simp [isArithmetic] at hop

end BinaryOp

/-! ### Whole trees -/

namespace Expr

/-- The expression is built from whole numbers by arithmetic operators. -/
inductive IsArithmetic : Expr σ → Prop where
  | constant (n : Int64) : IsArithmetic (.constant (.int n))
  | binary {op : BinaryOp} {left right : Expr σ} :
    op.isArithmetic = true → IsArithmetic left → IsArithmetic right →
      IsArithmetic (.binary op left right)

/-- The expression comes to `n` in whole numbers without bounds. -/
inductive ExactlyIs : Expr σ → Int → Prop where
  | constant (n : Int64) : ExactlyIs (.constant (.int n)) n.toInt
  | binary {op : BinaryOp} {left right : Expr σ} {a b n : Int} :
    ExactlyIs left a → ExactlyIs right b → op.IsExact a b n →
      ExactlyIs (.binary op left right) n

/-- The operations of an expression: those of the operands from left to right, and then the operator
itself. -/
def operations : Expr σ → List (Expr σ)
  | binary op left right => left.operations ++ right.operations ++ [binary op left right]
  | _ => []

/-- The expression is an operator on operands that come to `a` and `b`, and this is an operation
that 64 bits cannot follow. -/
inductive Offends : Expr σ → BinaryOp → Int → Int → Prop where
  | binary {op : BinaryOp} {left right : Expr σ} {a b : Int} :
    left.ExactlyIs a → right.ExactlyIs b → op.Offends a b → Offends (.binary op left right) op a b

/-- None of the operations offends. -/
def StaysWithinBounds (operations : List (Expr σ)) : Prop :=
  ∀ node ∈ operations, ∀ op a b, ¬ node.Offends op a b

/-- The first operation that offends does so as `op` on `a` and `b`. -/
def FirstOffends (operations : List (Expr σ)) (op : BinaryOp) (a b : Int) : Prop :=
  ∃ before node after, operations = before ++ node :: after ∧
    StaysWithinBounds before ∧ node.Offends op a b

/-- An expression has at most one exact result. -/
lemma ExactlyIs.unique {e : Expr σ} {m n : Int} (hm : e.ExactlyIs m) (hn : e.ExactlyIs n) :
    m = n := by
  induction hm generalizing n with
  | constant =>
    cases hn
    rfl
  | binary _ _ hexact ihl ihr =>
    cases hn with
    | binary hl hr hexact' =>
      obtain rfl := ihl hl
      obtain rfl := ihr hr
      exact hexact.unique hexact'

/-- Operations that come later do not change which one offends first. -/
lemma FirstOffends.append {operations : List (Expr σ)} {op : BinaryOp} {a b : Int}
    (h : FirstOffends operations op a b) (rest : List (Expr σ)) :
    FirstOffends (operations ++ rest) op a b := by
  obtain ⟨before, node, after, rfl, hbefore, hnode⟩ := h
  exact ⟨before, node, after ++ rest, by simp, hbefore, hnode⟩

/-- Two lists of operations that stay within bounds do so one after the other. -/
lemma StaysWithinBounds.append {first rest : List (Expr σ)} (hfirst : StaysWithinBounds first)
    (hrest : StaysWithinBounds rest) : StaysWithinBounds (first ++ rest) := by
  intro node hnode
  exact (List.mem_append.mp hnode).elim (hfirst node) (hrest node)

/-- Operations in front that stay within bounds do not change which one offends first. -/
lemma FirstOffends.of_append {first rest : List (Expr σ)} {op : BinaryOp} {a b : Int}
    (hfirst : StaysWithinBounds first) (h : FirstOffends rest op a b) :
    FirstOffends (first ++ rest) op a b := by
  obtain ⟨before, node, after, rfl, hbefore, hnode⟩ := h
  exact ⟨first ++ before, node, after, by simp, hfirst.append hbefore, hnode⟩

/-- What stays within bounds has no first operation that offends. -/
lemma StaysWithinBounds.not_firstOffends {operations : List (Expr σ)}
    (h : StaysWithinBounds operations) (op : BinaryOp) (a b : Int) :
    ¬ FirstOffends operations op a b := by
  rintro ⟨before, node, after, rfl, -, hnode⟩
  exact h node (by simp) op a b hnode

/-- Arithmetic is computed exactly up to the first operation that offends. -/
lemma outcome_evaluate_cases {e : Expr σ} (he : e.IsArithmetic) (host : σ) :
    (∃ n : Int64, outcome e.evaluate host = (.ok (.int n), host) ∧ e.ExactlyIs n.toInt ∧
      StaysWithinBounds e.operations) ∨
    ∃ op, ∃ a b : Int64, outcome e.evaluate host = (.error (.integerFailed op a b), host) ∧
      FirstOffends e.operations op a.toInt b.toInt := by
  induction he with
  | constant n => exact .inl ⟨n, rfl, .constant n, nofun⟩
  | @binary op left right hop _ _ ihl ihr =>
    rw [evaluate, outcome_bind, operations]
    rcases ihl with ⟨a, hl, hexactl, hboundl⟩ | ⟨op', a, b, hl, hfirst⟩
    swap
    · refine .inr ⟨op', a, b, by rw [hl], ?_⟩
      rw [List.append_assoc]
      exact hfirst.append _
    rw [hl]
    dsimp only
    rw [outcome_bind]
    rcases ihr with ⟨b, hr, hexactr, hboundr⟩ | ⟨op', b, c, hr, hfirst⟩
    swap
    · exact .inr ⟨op', b, c, by rw [hr], (FirstOffends.of_append hboundl hfirst).append _⟩
    rw [hr]
    dsimp only
    rw [outcome_liftExcept, BinaryOp.apply_int hop]
    cases hresult : op.onInt64? a b with
    | some m =>
      obtain ⟨hexact, hnot⟩ := BinaryOp.onInt64?_eq_some hresult
      refine .inl ⟨m, rfl, .binary hexactl hexactr hexact, (hboundl.append hboundr).append ?_⟩
      rintro node hnode op' a' b' hoffends
      obtain rfl := List.mem_singleton.mp hnode
      cases hoffends with
      | binary hl' hr' hoffends =>
        obtain rfl := hexactl.unique hl'
        obtain rfl := hexactr.unique hr'
        exact hnot hoffends
    | none =>
      have hoffends := BinaryOp.offends_of_onInt64?_eq_none hop hresult
      exact .inr ⟨op, a, b, rfl, FirstOffends.of_append (hboundl.append hboundr)
        ⟨[], _, [], rfl, nofun, .binary hexactl hexactr hoffends⟩⟩

/-- Arithmetic on whole numbers has the exact result as its value, provided that no operation
offends, and otherwise it fails for the first operation that does.  It has no other value, and the
host is left as it is. -/
theorem evaluate_arithmetic {e : Expr σ} (he : e.IsArithmetic) (host : σ) :
    (∀ n : Int64, outcome e.evaluate host = (.ok (.int n), host) ↔
      e.ExactlyIs n.toInt ∧ StaysWithinBounds e.operations) ∧
    (¬ StaysWithinBounds e.operations →
      ∃ op, ∃ a b : Int64, FirstOffends e.operations op a.toInt b.toInt ∧
        outcome e.evaluate host = (.error (.integerFailed op a b), host)) ∧
    ∀ v host', outcome e.evaluate host = (.ok v, host') → host' = host ∧ ∃ n, v = .int n := by
  rcases outcome_evaluate_cases he host with ⟨m, h, hexact, hbounds⟩ | ⟨op, a, b, h, hfirst⟩
  · refine ⟨fun n => ?_, fun hnot => absurd hbounds hnot, fun v host' hv => ?_⟩
    · rw [h]
      constructor
      · rintro ⟨⟩
        exact ⟨hexact, hbounds⟩
      · rintro ⟨hexact', -⟩
        rw [Int64.toInt_inj.mp (hexact.unique hexact')]
    · rw [h] at hv
      obtain ⟨⟩ := hv
      exact ⟨rfl, m, rfl⟩
  · refine ⟨fun n => ?_, fun _ => ⟨op, a, b, hfirst, h⟩, fun v host' hv => ?_⟩
    · rw [h]
      constructor
      · rintro ⟨⟩
      · rintro ⟨-, hbounds⟩
        exact absurd hfirst (hbounds.not_firstOffends op a.toInt b.toInt)
    · rw [h] at hv
      obtain ⟨⟩ := hv

/-- A remainder by `-1`, and a division by zero behind it. -/
def leastRemainderSample : Expr Unit :=
  .binary .add
    (.binary .modulo (.constant (.int Int64.minValue)) (.constant (.int (-1))))
    (.binary .divide (.constant (.int 1)) (.constant (.int 0)))

/-- The remainder offends, although it is zero, and the division by zero behind it is not reached.
-/
theorem evaluate_arithmetic_leastRemainder :
    FirstOffends leastRemainderSample.operations .modulo (-2 ^ 63) (-1) ∧
      outcome leastRemainderSample.evaluate () =
        (.error (.integerFailed .modulo Int64.minValue (-1)), ()) := by
  have he : leastRemainderSample.IsArithmetic :=
    .binary rfl (.binary rfl (.constant _) (.constant _)) (.binary rfl (.constant _) (.constant _))
  have hoffends : ¬ StaysWithinBounds leastRemainderSample.operations := fun hbounds =>
    hbounds _ List.mem_cons_self _ _ _
      (.binary (.constant _) (.constant _) (.leastByMinusOne rfl rfl rfl))
  obtain ⟨-, hfails, -⟩ := evaluate_arithmetic he ()
  obtain ⟨op, a, b, hfirst, h⟩ := hfails hoffends
  have heval : outcome leastRemainderSample.evaluate () =
      (.error (.integerFailed .modulo Int64.minValue (-1)), ()) := rfl
  rw [heval] at h
  obtain ⟨⟩ := h
  exact ⟨hfirst, heval⟩

end Expr

end IssueQuery

import Mathlib.Tactic.Ring
import Mathlib.Order.Defs.LinearOrder

/-!
# Whole numbers with 53 significant bits

A binary64 number has 53 significant bits.  `nearestShort` rounds a whole number to the nearest one
that needs no more of them, and of two equally near ones takes the one with the even significand.

No number of 53 significant bits is nearer than the rounded one (`natAbs_nearestShort_sub_le`).  So
rounding keeps the order of two numbers (`nearestShort_mono`), but may make them equal; it leaves
alone what has at most 53 bits (`nearestShort_eq_self`).
-/

namespace IssueQuery

/-- `n` over `2 ^ k`, rounded to the nearest whole number, and to the even one of two. -/
def roundHalfEven (n k : Nat) : Nat :=
  if 2 * (n % 2 ^ k) < 2 ^ k then n / 2 ^ k
  else if 2 ^ k < 2 * (n % 2 ^ k) then n / 2 ^ k + 1
  else n / 2 ^ k + n / 2 ^ k % 2

/-- How many of the low bits of a number lie below its 53 leading bits. -/
def excessBits (n : Nat) : Nat := n.log2 - 52

/-- The natural number with 53 significant bits that is nearest to `n`. -/
def nearestShortNat (n : Nat) : Nat := roundHalfEven n (excessBits n) * 2 ^ excessBits n

/-- The whole number with 53 significant bits that is nearest to `n`. -/
def nearestShort : Int → Int
  | .ofNat n => nearestShortNat n
  | .negSucc n => -nearestShortNat (n + 1)

/-- The number needs no more than 53 significant bits. -/
def IsShort (n : Nat) : Prop := ∃ significand k, significand ≤ 2 ^ 53 ∧ n = significand * 2 ^ k

/-! ### Rounding to multiples of a power of two -/

/-- The rounded number is the nearer one of the two neighbours. -/
lemma roundHalfEven_cases (n k : Nat) :
    (roundHalfEven n k = n / 2 ^ k ∧ 2 * (n % 2 ^ k) ≤ 2 ^ k) ∨
      (roundHalfEven n k = n / 2 ^ k + 1 ∧ 2 ^ k ≤ 2 * (n % 2 ^ k)) := by
  rw [roundHalfEven]
  split_ifs <;> omega

/-- Nothing is rounded when no bits go. -/
@[simp] lemma roundHalfEven_zero_right (n : Nat) : roundHalfEven n 0 = n := by
  simp [roundHalfEven, Nat.mod_one]

/-- Trailing zeros do not matter. -/
lemma roundHalfEven_mul_two_pow (n k j : Nat) :
    roundHalfEven (n * 2 ^ j) (k + j) = roundHalfEven n k := by
  have hpos : 0 < 2 ^ j := Nat.two_pow_pos j
  have htwice : 2 * (n % 2 ^ k * 2 ^ j) = 2 * (n % 2 ^ k) * 2 ^ j := (Nat.mul_assoc _ _ _).symm
  simp only [roundHalfEven, pow_add, Nat.mul_div_mul_right _ _ hpos, Nat.mul_mod_mul_right, htwice,
    Nat.mul_lt_mul_right hpos]

/-- No multiple of the power of two is nearer than the rounded one. -/
lemma natAbs_roundHalfEven_sub_le (n k other : Nat) :
    ((roundHalfEven n k * 2 ^ k : Nat) - n : Int).natAbs ≤
      ((other * 2 ^ k : Nat) - n : Int).natAbs := by
  have hn : n / 2 ^ k * 2 ^ k + n % 2 ^ k = n := Nat.div_add_mod' n (2 ^ k)
  have hrest : n % 2 ^ k < 2 ^ k := Nat.mod_lt _ (Nat.two_pow_pos k)
  have hother : other * 2 ^ k ≤ n / 2 ^ k * 2 ^ k ∨ (n / 2 ^ k + 1) * 2 ^ k ≤ other * 2 ^ k :=
    (Nat.lt_or_ge (n / 2 ^ k) other).symm.imp
      (fun h => Nat.mul_le_mul_right _ h) (fun h => Nat.mul_le_mul_right _ h)
  rw [Nat.succ_mul] at hother
  rcases roundHalfEven_cases n k with ⟨heq, hnear⟩ | ⟨heq, hnear⟩
  · rw [heq]
    omega
  · rw [heq, Nat.succ_mul]
    omega

/-! ### Rounding to 53 significant bits -/

/-- The leading bits of a number that has more than 53, and the power of two below them. -/
lemma excessBits_spec {n : Nat} (h : 2 ^ 53 ≤ n) :
    2 ^ 52 * 2 ^ excessBits n ≤ n ∧ n < 2 ^ 53 * 2 ^ excessBits n := by
  have hne : n ≠ 0 := by omega
  have hlog : 53 ≤ n.log2 := (Nat.le_log2 hne).mpr h
  have hexcess : n.log2 = 52 + excessBits n := by rw [excessBits]; omega
  rw [← pow_add, ← pow_add, ← hexcess]
  refine ⟨Nat.log2_self_le hne, ?_⟩
  have : 53 + excessBits n = n.log2 + 1 := by omega
  rw [this]
  exact Nat.lt_log2_self

/-- A number of at most 53 bits is rounded to itself. -/
lemma nearestShortNat_eq_self {n : Nat} (h : n ≤ 2 ^ 53) : nearestShortNat n = n := by
  rcases h.lt_or_eq with h | rfl
  · have hexcess : excessBits n = 0 := by
      by_cases hn : n = 0
      · simp [hn, excessBits]
      · have := (Nat.log2_lt hn).mpr h
        rw [excessBits]
        omega
    rw [nearestShortNat, hexcess, roundHalfEven_zero_right]
    simp
  · decide

/-- A number is rounded in the same way when it is written with more trailing zeros, as long as
these are shifted out together with the excess. -/
lemma roundHalfEven_mul_two_pow_log2 {n j k : Nat} (h : n.log2 + j = 52 + k) :
    roundHalfEven (n * 2 ^ j) k * 2 ^ n.log2 = nearestShortNat n * 2 ^ 52 := by
  rcases Nat.le_total 52 n.log2 with hlog | hlog
  · obtain ⟨excess, hexcess⟩ := Nat.exists_eq_add_of_le hlog
    obtain rfl : k = excess + j := by omega
    have hself : excessBits n = excess := by rw [excessBits]; omega
    rw [roundHalfEven_mul_two_pow, nearestShortNat, hself, hexcess]
    ring
  · obtain ⟨zeros, hzeros⟩ := Nat.exists_eq_add_of_le hlog
    obtain rfl : j = zeros + k := by omega
    have hself : excessBits n = 0 := by rw [excessBits]; omega
    have hround := roundHalfEven_mul_two_pow (n * 2 ^ zeros) 0 k
    rw [Nat.zero_add, roundHalfEven_zero_right, mul_assoc, ← pow_add] at hround
    rw [hround, nearestShortNat, hself, roundHalfEven_zero_right, hzeros]
    ring

/-- The rounded number has 53 significant bits. -/
lemma isShort_nearestShortNat (n : Nat) : IsShort (nearestShortNat n) := by
  rcases Nat.lt_or_ge n (2 ^ 53) with h | h
  · exact ⟨n, 0, h.le, by rw [nearestShortNat_eq_self h.le]; simp⟩
  · refine ⟨_, excessBits n, ?_, rfl⟩
    have hfloor : n / 2 ^ excessBits n < 2 ^ 53 :=
      (Nat.div_lt_iff_lt_mul (Nat.two_pow_pos _)).mpr (excessBits_spec h).2
    rcases roundHalfEven_cases n (excessBits n) with ⟨heq, -⟩ | ⟨heq, -⟩ <;> omega

/-- A number with 53 significant bits either is a multiple of the power of two that a longer number
is rounded to, or lies below the whole binade. -/
lemma IsShort.multiple_or_le {m : Nat} (hm : IsShort m) (k : Nat) :
    (∃ c, m = c * 2 ^ k) ∨ m ≤ 2 ^ 52 * 2 ^ k := by
  obtain ⟨c, j, hc, rfl⟩ := hm
  rcases Nat.lt_or_ge j k with hj | hj
  · right
    calc c * 2 ^ j ≤ 2 ^ 53 * 2 ^ j := Nat.mul_le_mul_right _ hc
      _ = 2 ^ 52 * 2 ^ (j + 1) := by ring
      _ ≤ 2 ^ 52 * 2 ^ k := Nat.mul_le_mul_left _ (Nat.pow_le_pow_right (by decide) hj)
  · left
    obtain ⟨i, rfl⟩ := Nat.exists_eq_add_of_le hj
    exact ⟨c * 2 ^ i, by ring⟩

/-- No natural number with 53 significant bits is nearer than the rounded one. -/
lemma natAbs_nearestShortNat_sub_le (n : Nat) {m : Nat} (hm : IsShort m) :
    ((nearestShortNat n : Int) - n).natAbs ≤ ((m : Int) - n).natAbs := by
  rcases Nat.lt_or_ge n (2 ^ 53) with h | h
  · rw [nearestShortNat_eq_self h.le]
    omega
  · rcases hm.multiple_or_le (excessBits n) with ⟨c, rfl⟩ | hle
    · exact natAbs_roundHalfEven_sub_le n (excessBits n) c
    · have hnear := natAbs_roundHalfEven_sub_le n (excessBits n) (2 ^ 52)
      have hlow := (excessBits_spec h).1
      rw [nearestShortNat]
      omega

/-! ### Signed numbers -/

/-- The magnitude is rounded apart from the sign. -/
lemma natAbs_nearestShort (n : Int) : (nearestShort n).natAbs = nearestShortNat n.natAbs := by
  cases n <;> simp [nearestShort]

/-- No whole number with 53 significant bits is nearer than the rounded one. -/
lemma natAbs_nearestShort_sub_le (n : Int) {m : Int} (hm : IsShort m.natAbs) :
    (nearestShort n - n).natAbs ≤ (m - n).natAbs := by
  cases n with
  | ofNat n =>
    have hnear := natAbs_nearestShortNat_sub_le n hm
    simp only [nearestShort, Int.ofNat_eq_natCast]
    omega
  | negSucc n =>
    have hnear := natAbs_nearestShortNat_sub_le (n + 1) hm
    simp only [nearestShort]
    omega

/-- Rounding keeps the order, though it may make two numbers equal. -/
lemma nearestShort_mono {a b : Int} (h : a ≤ b) : nearestShort a ≤ nearestShort b := by
  have hshort : ∀ n, IsShort (nearestShort n).natAbs := fun n => by
    rw [natAbs_nearestShort]
    exact isShort_nearestShortNat _
  rcases h.lt_or_eq with h | rfl
  · have ha := natAbs_nearestShort_sub_le a (hshort b)
    have hb := natAbs_nearestShort_sub_le b (hshort a)
    omega
  · exact le_rfl

/-- What has at most 53 bits is rounded to itself. -/
lemma nearestShort_eq_self {n : Int} (h : n.natAbs ≤ 2 ^ 53) : nearestShort n = n := by
  cases n with
  | ofNat n => exact congrArg Int.ofNat (nearestShortNat_eq_self h)
  | negSucc n =>
    have hself : nearestShortNat (n + 1) = n + 1 := nearestShortNat_eq_self h
    rw [nearestShort, hself]
    rfl

/-- The comparison of two rounded numbers is that of the numbers themselves, unless they are rounded
to one number. -/
lemma compare_nearestShort_eq_iff (a b : Int) :
    compare (nearestShort a) (nearestShort b) = compare a b ↔
      a = b ∨ nearestShort a ≠ nearestShort b := by
  rcases lt_trichotomy a b with h | rfl | h
  · have hle := nearestShort_mono h.le
    rw [compare_lt_iff_lt.mpr h, compare_lt_iff_lt]
    omega
  · simp
  · have hle := nearestShort_mono h.le
    rw [compare_gt_iff_gt.mpr h, compare_gt_iff_gt]
    omega

end IssueQuery

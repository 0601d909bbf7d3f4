import Mathlib
import IssueQuery.Proofs.Numeric.Nearest
import IssueQuery.Value

/-!
# Whole numbers as floating-point numbers

A whole number of at most 64 bits is converted to the floating-point number that stands for its
rounding to 53 significant bits (`denotesInt_ofInt`), and floating-point numbers that stand for
whole numbers are ordered as these are (`DenotesInt.compareFloats?`).

Both are facts about the format.  `Denotes` says which whole number an unpacked number stands for;
rounding to the format goes to the nearest such number (`denotes_roundWithAccuracy`), and packing
loses nothing (`Denotes.unpack_pack`).
-/

namespace IssueQuery

open Float.Model Float.Model.UnpackedFloat

/-- The significand `m` of 53 bits, with its leading bit at `2 ^ k`, is the number `n`. -/
structure IsScaled (m k n : Nat) : Prop where
  low : 2 ^ 52 ≤ m
  high : m < 2 ^ 53
  value : m * 2 ^ k = n * 2 ^ 52

/-- The unpacked number is the whole number: a zero, or a significand whose exponent is the one that
the format wants. -/
inductive Denotes : UnpackedFloat → Int → Prop where
  | zero (s : Sign) : Denotes (.zero s) 0
  | finite (s : Sign) {m k n : Nat} (hpos : 0 < m) :
    IsScaled m k n → k < 1024 → Denotes (.finite s m (k - 52) hpos) (s.apply n)

/-! ### Significands -/

namespace IsScaled

variable {m m' k k' n n' : Nat}

/-- The significand is not zero. -/
lemma significand_pos (h : IsScaled m k n) : 0 < m := Nat.lt_of_lt_of_le (by decide) h.low

/-- The leading bit of the significand is the one at `2 ^ 52`. -/
lemma log2_significand (h : IsScaled m k n) : m.log2 = 52 :=
  (Nat.log2_eq_iff h.significand_pos.ne').mpr ⟨h.low, h.high⟩

/-- The number is not zero. -/
lemma pos (h : IsScaled m k n) : 0 < n := by
  have : 0 < n * 2 ^ 52 := h.value ▸ Nat.mul_pos h.significand_pos (Nat.two_pow_pos k)
  exact Nat.pos_of_mul_pos_right this

/-- The exponent is that of the leading bit of the number. -/
lemma log2_eq (h : IsScaled m k n) : n.log2 = k := by
  refine (Nat.log2_eq_iff h.pos.ne').mpr ⟨?_, ?_⟩
  · refine Nat.le_of_mul_le_mul_left (c := 2 ^ 52) ?_ (by decide)
    rw [Nat.mul_comm _ n, ← h.value]
    exact Nat.mul_le_mul_right _ h.low
  · refine Nat.lt_of_mul_lt_mul_right (a := 2 ^ 52) ?_
    rw [← h.value, show 2 ^ (k + 1) * 2 ^ 52 = 2 ^ 53 * 2 ^ k by ring]
    exact Nat.mul_lt_mul_of_pos_right h.high (Nat.two_pow_pos k)

/-- The larger exponent makes the larger number. -/
lemma lt_of_lt (h : IsScaled m k n) (h' : IsScaled m' k' n') (hk : k < k') : n < n' := by
  rw [← h.log2_eq, ← h'.log2_eq] at hk
  calc n < 2 ^ (n.log2 + 1) := Nat.lt_log2_self
    _ ≤ 2 ^ n'.log2 := Nat.pow_le_pow_right (by decide) hk
    _ ≤ n' := Nat.log2_self_le h'.pos.ne'

/-- Under one exponent, significands are ordered as the numbers are. -/
lemma compare_significands (h : IsScaled m k n) (h' : IsScaled m' k n') :
    compare m m' = compare n n' := by
  have hscale : ∀ a b j : Nat, compare (a * 2 ^ j) (b * 2 ^ j) = compare a b := fun a b j => by
    rw [← cmp_eq_compare, ← cmp_eq_compare, cmp_mul_pos_right (Nat.two_pow_pos j)]
  calc compare m m' = compare (m * 2 ^ k) (m' * 2 ^ k) := (hscale m m' k).symm
    _ = compare (n * 2 ^ 52) (n' * 2 ^ 52) := by rw [h.value, h'.value]
    _ = compare n n' := hscale n n' 52

/-- Exponents are compared first, and then significands. -/
lemma compare_eq (h : IsScaled m k n) (h' : IsScaled m' k' n') :
    (compare ((k : Int) - 52) (k' - 52)).then (compare m m') = compare n n' := by
  rcases lt_trichotomy k k' with hk | rfl | hk
  · rw [compare_lt_iff_lt.mpr (show (k : Int) - 52 < k' - 52 by omega),
      compare_lt_iff_lt.mpr (h.lt_of_lt h' hk)]
    rfl
  · rw [compare_eq_iff_eq.mpr rfl]
    exact h.compare_significands h'
  · rw [compare_gt_iff_gt.mpr (show (k : Int) - 52 > k' - 52 by omega),
      compare_gt_iff_gt.mpr (h'.lt_of_lt h hk)]
    rfl

end IsScaled

/-! ### Shifting and rounding -/

/-- What is left of a mantissa after its low bits are shifted out. -/
lemma shiftRight_eq (m k : Nat) :
    ((⟨m, false, false⟩ : ExtendedMantissa) >>> k) =
      ⟨m / 2 ^ k, decide (2 ^ k ≤ 2 * (m % 2 ^ k)),
        decide (m % 2 ^ k ≠ 0 ∧ 2 * (m % 2 ^ k) ≠ 2 ^ k)⟩ := by
  induction k with
  | zero => simp [HShiftRight.hShiftRight, Nat.repeat, Nat.mod_one]
  | succ k ih =>
    have hstep : ((⟨m, false, false⟩ : ExtendedMantissa) >>> (k + 1)) =
        ((⟨m, false, false⟩ : ExtendedMantissa) >>> k).shiftRightOne := rfl
    have hrest : m % 2 ^ (k + 1) = m % 2 ^ k + 2 ^ k * (m / 2 ^ k % 2) := by
      rw [pow_succ, Nat.mod_mul]
    have hlt : m % 2 ^ k < 2 ^ k := Nat.mod_lt _ (Nat.two_pow_pos k)
    rw [hstep, ih, ExtendedMantissa.shiftRightOne, hrest, pow_succ, Nat.div_div_eq_div_mul]
    rcases Nat.mod_two_eq_zero_or_one (m / 2 ^ k) with hbit | hbit
    · rw [hbit, Nat.mul_zero, Nat.add_zero]
      congr 1
      · simp
        omega
      · rw [Bool.eq_iff_iff]
        simp
        omega
    · rw [hbit, Nat.mul_one]
      congr 1
      · simp
        omega
      · rw [Bool.eq_iff_iff]
        simp
        omega

/-- Rounding what is left goes to the nearest number. -/
lemma roundedMantissa_shiftRight (m k : Nat) :
    ((⟨m, false, false⟩ : ExtendedMantissa) >>> k).roundedMantissa = roundHalfEven m k := by
  have hpos : 0 < 2 ^ k := Nat.two_pow_pos k
  rw [shiftRight_eq, ExtendedMantissa.roundedMantissa, roundHalfEven]
  rcases lt_trichotomy (2 * (m % 2 ^ k)) (2 ^ k) with h | h | h
  · rw [if_pos h, decide_eq_false (Nat.not_le.mpr h)]
    cases decide (m % 2 ^ k ≠ 0 ∧ 2 * (m % 2 ^ k) ≠ 2 ^ k) <;> rfl
  · rw [if_neg h.not_lt, if_neg h.not_gt, decide_eq_true h.ge, decide_eq_false (by simp [h])]
    rfl
  · have hne : m % 2 ^ k ≠ 0 ∧ 2 * (m % 2 ^ k) ≠ 2 ^ k := by omega
    rw [if_neg h.not_gt, if_pos h, decide_eq_true h.le, decide_eq_true hne]
    rfl

/-- What has more than 53 bits is shifted until it has 53. -/
lemma shiftToTargetExponent_eq {m k : Nat} {e : Int} (hm : m.log2 = 52 + k)
    (he : -1074 ≤ e + k) :
    shiftToTargetExponent Format.binary64 m e .exact =
      ((⟨m, false, false⟩ : ExtendedMantissa) >>> k, e + k) := by
  have htarget : Format.binary64.targetExponent (totalExponent m e) = e + k := by
    simp only [Format.targetExponent, totalExponent, Format.mantissaBits, Format.minExponent, hm]
    norm_num
    omega
  have hamount : (e + k - e).toNat = k := by omega
  simp only [shiftToTargetExponent, htarget, shiftToExponent, hamount,
    ExtendedMantissa.ofMantissaAndAccuracy]

/-- Rounding is a shift, the choice of a neighbour, and another shift. -/
lemma roundWithAccuracy_of_shifts {spec : Format} {s : Sign} {m : Nat} {e e₁ e₂ : Int}
    {accuracy : Accuracy} {em₁ em₂ : ExtendedMantissa}
    (hfirst : shiftToTargetExponent spec m e accuracy = (em₁, e₁))
    (hsecond : shiftToTargetExponent spec em₁.roundedMantissa e₁ .exact = (em₂, e₂))
    (hpos : 0 < em₂.mantissa) :
    roundWithAccuracy spec s m e accuracy = .finite s em₂.mantissa e₂ hpos := by
  simp only [roundWithAccuracy, hfirst, hsecond]
  exact dif_neg hpos.ne'

/-- The significand is rounded, and if the rounding carries into one bit more, the last bit, which
is a zero then, is shifted out. -/
lemma roundWithAccuracy_eq (s : Sign) {m k : Nat} {e : Int} (hm : m.log2 = 52 + k)
    (he : -1074 ≤ e + k) :
    ∃ significand hpos, ∃ carry : Nat,
      roundWithAccuracy Format.binary64 s m e .exact = .finite s significand (e + k + carry) hpos ∧
        significand * 2 ^ carry = roundHalfEven m k ∧
        2 ^ 52 ≤ significand ∧ significand < 2 ^ 53 ∧ carry ≤ 1 := by
  have hne : m ≠ 0 := by
    rintro rfl
    simp at hm
    omega
  have hfloor : 2 ^ 52 ≤ m / 2 ^ k ∧ m / 2 ^ k < 2 ^ 53 := by
    rw [Nat.le_div_iff_mul_le (Nat.two_pow_pos k), Nat.div_lt_iff_lt_mul (Nat.two_pow_pos k),
      ← pow_add, ← pow_add, ← hm, show 53 + k = m.log2 + 1 by omega]
    exact ⟨Nat.log2_self_le hne, Nat.lt_log2_self⟩
  have hrounded : 2 ^ 52 ≤ roundHalfEven m k ∧ roundHalfEven m k ≤ 2 ^ 53 := by
    rcases roundHalfEven_cases m k with ⟨heq, -⟩ | ⟨heq, -⟩ <;> omega
  have hfirst := shiftToTargetExponent_eq hm he
  rw [← roundedMantissa_shiftRight] at hrounded ⊢
  rcases hrounded.2.lt_or_eq with hlt | hcarry
  · have hlog := (Nat.log2_eq_iff (by omega)).mpr ⟨hrounded.1, hlt⟩
    have hsecond := shiftToTargetExponent_eq (k := 0) (e := e + k) hlog (by omega)
    have hpos : 0 < ((⟨m, false, false⟩ : ExtendedMantissa) >>> k).roundedMantissa := by omega
    exact ⟨_, hpos, 0, roundWithAccuracy_of_shifts hfirst hsecond hpos, Nat.mul_one _,
      hrounded.1, hlt, by decide⟩
  · have hlog : (2 ^ 53).log2 = 52 + 1 := Nat.log2_two_pow
    have hsecond : shiftToTargetExponent Format.binary64
        ((⟨m, false, false⟩ : ExtendedMantissa) >>> k).roundedMantissa (e + k) .exact =
          (⟨2 ^ 52, false, false⟩, e + k + (1 : Nat)) := by
      rw [hcarry, shiftToTargetExponent_eq hlog (by omega)]
      rfl
    exact ⟨2 ^ 52, by decide, 1, roundWithAccuracy_of_shifts hfirst hsecond (by decide),
      hcarry.symm, le_rfl, by decide, le_rfl⟩

/-- Rounding gives the nearest number, however the number is written as a multiple of a power of
two with at least 53 bits. -/
lemma denotes_roundWithAccuracy (s : Sign) {n j : Nat} (hn : 0 < n) (hbits : n.log2 < 1023)
    (hj : 52 ≤ n.log2 + j) :
    Denotes (roundWithAccuracy Format.binary64 s (n * 2 ^ j) (-j) .exact)
      (s.apply (nearestShortNat n)) := by
  have hlog : (n * 2 ^ j).log2 = n.log2 + j := by
    rw [Nat.log2_eq_iff (Nat.mul_ne_zero hn.ne' (Nat.two_pow_pos j).ne'), pow_add,
      show n.log2 + j + 1 = n.log2 + 1 + j by omega, pow_add]
    exact ⟨Nat.mul_le_mul_right _ (Nat.log2_self_le hn.ne'),
      Nat.mul_lt_mul_of_pos_right Nat.lt_log2_self (Nat.two_pow_pos j)⟩
  obtain ⟨k, hk⟩ := Nat.exists_eq_add_of_le hj
  obtain ⟨significand, hpos, carry, hround, hvalue, hlow, hhigh, hcarry⟩ :=
    roundWithAccuracy_eq s (hlog.trans hk) (show (-1074 : Int) ≤ -j + k by omega)
  have hexponent : (-j + k + carry : Int) = (n.log2 + carry : Nat) - 52 := by omega
  have hscaled : significand * 2 ^ (n.log2 + carry) = nearestShortNat n * 2 ^ 52 := by
    calc significand * 2 ^ (n.log2 + carry) = significand * 2 ^ carry * 2 ^ n.log2 := by ring
      _ = nearestShortNat n * 2 ^ 52 := by rw [hvalue, roundHalfEven_mul_two_pow_log2 hk]
  rw [hround, hexponent]
  exact .finite s hpos ⟨hlow, hhigh, hscaled⟩ (by omega)

/-! ### The binary format -/

/-- The sign comes back from the packed number. -/
@[simp] lemma unpackSign_packComponents {spec : Format} (s : Sign)
    (exponent : BitVec spec.exponentBits) (mantissa : BitVec spec.mantissaBitsWithoutImplicit) :
    unpackSign (packComponents spec s exponent mantissa) = s.toBitVec := by
  ext i hi
  obtain rfl : i = 0 := by omega
  simp [unpackSign, packComponents, BitVec.getLsbD_append, BitVec.getElem_append]

/-- The sign comes back from its bit. -/
@[simp] lemma ofBitVec_toBitVec (s : Sign) : Sign.ofBitVec s.toBitVec = s := by
  cases s <;> rfl

/-- The leading bit, which is not stored, comes back. -/
lemma toNat_implicit_append {m : Nat} (hlow : 2 ^ 52 ≤ m) (hhigh : m < 2 ^ 53) :
    (1#1 ++ BitVec.ofNat 52 m).toNat = m := by
  rw [BitVec.toNat_append, ← Nat.shiftLeft_add_eq_or_of_lt (BitVec.isLt _), BitVec.toNat_ofNat,
    BitVec.toNat_ofNat, Nat.shiftLeft_eq]
  omega

/-- A number with a leading bit is stored by the other bits and the biased exponent. -/
lemma pack_finite (s : Sign) {m k : Nat} (hpos : 0 < m) (hlog : m.log2 = 52) (hk : k < 1024) :
    UnpackedFloat.pack Format.binary64 (.finite s m (k - 52) hpos) =
      packComponents Format.binary64 s (BitVec.ofNat 11 (k + 1023)) (BitVec.ofNat 52 m) := by
  have hbiased : ((k : Int) - 52 + (2 ^ (11 - 1) - 1 : Nat) + (52 : Nat)).toNat = k + 1023 := by
    omega
  have hfits : ¬ 2 ^ 11 ≤ k + 1023 + 1 := by omega
  simp only [UnpackedFloat.pack, Format.exponentBias, Format.mantissaBits, hlog, hbiased, hfits]
  rfl

/-- A biased exponent between the two ends stands for a number with a leading bit. -/
lemma unpack_packComponents (s : Sign) {exponent : BitVec 11} (mantissa : BitVec 52)
    (hzero : exponent ≠ 0#11) (hones : exponent ≠ -1#11) :
    ∃ hpos, UnpackedFloat.unpack Format.binary64
        (packComponents Format.binary64 s exponent mantissa) =
      .finite s (1#1 ++ mantissa).toNat (exponent.toNat - (1023 + 52)) hpos := by
  simp only [UnpackedFloat.unpack, unpackExponent_packComponents, unpackMantissa_packComponents,
    unpackSign_packComponents, ofBitVec_toBitVec, if_neg hzero, if_neg hones]
  have hpos : 0 < (1#1 ++ mantissa).toNat := by
    rw [BitVec.toNat_append]
    exact Nat.lt_of_lt_of_le (by decide) Nat.left_le_or
  exact ⟨hpos, rfl⟩

/-- What denotes a whole number is stored without loss. -/
lemma Denotes.unpack_pack {f : UnpackedFloat} {z : Int} (h : Denotes f z) :
    (Float.Model.pack f).unpack = f := by
  cases h with
  | zero s => cases s <;> rfl
  | @finite s m k n hpos hscaled hk =>
    have hexponent : (BitVec.ofNat 11 (k + 1023)).toNat = k + 1023 := by
      rw [BitVec.toNat_ofNat]
      omega
    have hzero : BitVec.ofNat 11 (k + 1023) ≠ 0#11 := by
      rw [Ne, ← BitVec.toNat_inj, hexponent, BitVec.toNat_ofNat]
      omega
    have hones : BitVec.ofNat 11 (k + 1023) ≠ -1#11 := by
      rw [Ne, ← BitVec.toNat_inj, hexponent]
      exact (show k + 1023 < 2047 by omega).ne
    obtain ⟨_, hunpack⟩ := unpack_packComponents s (BitVec.ofNat 52 m) hzero hones
    have hvalue : ((k + 1023 : Nat) : Int) - (1023 + 52) = k - 52 := by omega
    simp only [Float.Model.unpack, Float.Model.pack,
      pack_finite s hpos hscaled.log2_significand hk]
    rw [hunpack]
    simp only [toNat_implicit_append hscaled.low hscaled.high, hexponent, hvalue]

/-! ### Comparison -/

/-- Numbers with a plus compare as their magnitudes. -/
lemma compare_positive (n n' : Nat) :
    compare (Sign.positive.apply n) (Sign.positive.apply n') = compare n n' := by
  rw [← cmp_eq_compare, ← cmp_eq_compare]
  exact Nat.strictMono_cast.cmp_map_eq n n'

/-- Numbers with a minus compare the other way around. -/
lemma compare_negative (n n' : Nat) :
    compare (Sign.negative.apply n) (Sign.negative.apply n') = (compare n n').swap := by
  have hanti : StrictAnti fun n : Nat => Sign.negative.apply n := fun _ _ h =>
    Int.neg_lt_neg (Int.ofNat_lt.mpr h)
  rw [← cmp_eq_compare, ← cmp_eq_compare, cmp_swap]
  exact hanti.cmp_map_eq n n'

/-- Unpacked numbers that denote whole numbers compare as these do. -/
lemma Denotes.compare_eq {f g : UnpackedFloat} {x y : Int} (hf : Denotes f x) (hg : Denotes g y) :
    f.compare g = some (compare x y) := by
  have hnegative : ∀ n : Nat, 0 < n → Sign.negative.apply n < 0 := fun n hn =>
    Int.neg_neg_of_pos (Int.natCast_pos.mpr hn)
  have hpositive : ∀ n : Nat, 0 < n → 0 < Sign.positive.apply n := fun n hn =>
    Int.natCast_pos.mpr hn
  cases hf with
  | zero s =>
    cases hg with
    | zero s' => rfl
    | finite s' _ h' _ =>
      cases s' with
      | positive => exact congrArg some (compare_lt_iff_lt.mpr (hpositive _ h'.pos)).symm
      | negative => exact congrArg some (compare_gt_iff_gt.mpr (hnegative _ h'.pos)).symm
  | finite s _ h _ =>
    cases hg with
    | zero s' =>
      cases s with
      | positive => exact congrArg some (compare_gt_iff_gt.mpr (hpositive _ h.pos)).symm
      | negative => exact congrArg some (compare_lt_iff_lt.mpr (hnegative _ h.pos)).symm
    | finite s' _ h' _ =>
      cases s with
      | positive =>
        cases s' with
        | positive => exact congrArg some ((h.compare_eq h').trans (compare_positive _ _).symm)
        | negative =>
          have hgt := (hnegative _ h'.pos).trans (hpositive _ h.pos)
          exact congrArg some (compare_gt_iff_gt.mpr hgt).symm
      | negative =>
        cases s' with
        | positive =>
          have hlt := (hnegative _ h.pos).trans (hpositive _ h'.pos)
          exact congrArg some (compare_lt_iff_lt.mpr hlt).symm
        | negative =>
          have hswap := congrArg Ordering.swap (h.compare_eq h')
          exact congrArg some (hswap.trans (compare_negative _ _).symm)

/-! ### Conversion -/

/-- The floating-point number denotes the whole number. -/
def DenotesInt (x : Float) (z : Int) : Prop := Denotes x.toModel.unpack z

/-- What the unpacked number denotes is what the packed one denotes. -/
lemma denotesInt_ofModel {f : UnpackedFloat} {z : Int} (h : Denotes f z) :
    DenotesInt (.ofModel (.pack f)) z := by
  rw [DenotesInt, h.unpack_pack]
  exact h

/-- The negated number denotes the negative. -/
lemma Denotes.neg {f : UnpackedFloat} {z : Int} (h : Denotes f z) : Denotes f.neg (-z) := by
  cases h with
  | zero s => exact .zero (-s)
  | @finite s m k n hpos hscaled hk =>
    have hsign : -s.apply n = (-s).apply n := by
      cases s with
      | negative => exact Int.neg_neg _
      | positive => rfl
    rw [hsign]
    exact .finite (-s) hpos hscaled hk

/-- A negated float denotes the negative. -/
lemma DenotesInt.neg {x : Float} {z : Int} (h : DenotesInt x z) : DenotesInt (-x) (-z) :=
  denotesInt_ofModel (Denotes.neg h)

section Comparison

variable {x y : Float} {a b : Int}

/-- Floats that denote whole numbers are ordered as these are. -/
lemma DenotesInt.lt_iff (hx : DenotesInt x a) (hy : DenotesInt y b) : x < y ↔ a < b := by
  have hmodel : x < y ↔ (x.toModel.unpack.compare y.toModel.unpack == some .lt) = true :=
    decide_eq_true_iff
  rw [hmodel, Denotes.compare_eq hx hy, beq_iff_eq, Option.some.injEq, compare_lt_iff_lt]

/-- Floats that denote whole numbers are equal when these are. -/
lemma DenotesInt.beq_iff (hx : DenotesInt x a) (hy : DenotesInt y b) : (x == y) = true ↔ a = b := by
  have hmodel : (x == y) = (x.toModel.unpack.compare y.toModel.unpack == some .eq) := rfl
  rw [hmodel, Denotes.compare_eq hx hy, beq_iff_eq, Option.some.injEq, compare_eq_iff_eq]

/-- Literals that denote whole numbers can be compared, and they compare as these do. -/
lemma DenotesInt.compareFloats? (hx : DenotesInt x a) (hy : DenotesInt y b) :
    Value.compareFloats? x y = some (compare a b) := by
  simp only [Value.compareFloats?, hx.lt_iff hy, hx.beq_iff hy, hy.lt_iff hx]
  rcases lt_trichotomy a b with h | rfl | h
  · rw [if_pos h, compare_lt_iff_lt.mpr h]
  · rw [if_neg (lt_irrefl a), if_pos rfl, compare_eq_iff_eq.mpr rfl]
  · rw [if_neg h.not_gt, if_neg h.ne', if_pos h, compare_gt_iff_gt.mpr h]

end Comparison

/-- A number of at most 53 bits lacks some zeros at its end. -/
lemma exists_eq_log2_add {n : Nat} (hn : 0 < n) (h : n < 2 ^ 53) : ∃ j, 52 = n.log2 + j :=
  Nat.exists_eq_add_of_le (Nat.lt_succ_iff.mp ((Nat.log2_lt hn.ne').mpr h))

/-- A number of at most 53 bits is normalised to itself. -/
lemma denotes_normalize {n : Nat} (h : n < 2 ^ 53) :
    Denotes (UnpackedFloat.normalize Format.binary64 n 0 .positive) n := by
  rcases Nat.eq_zero_or_pos n with rfl | hn
  · exact .zero .positive
  obtain ⟨j, hj⟩ := exists_eq_log2_add hn h
  have htarget : Format.binary64.targetExponent (totalExponent n 0) = -j := by
    simp only [Format.targetExponent, totalExponent, Format.mantissaBits, Format.minExponent]
    norm_num
    omega
  have hround : UnpackedFloat.normalize Format.binary64 n 0 .positive =
      roundWithAccuracy Format.binary64 .positive (n * 2 ^ j) (-j) .exact := by
    rw [UnpackedFloat.normalize, compare_gt_iff_gt.mpr (show (n : Int) > 0 by omega)]
    simp only [UnpackedFloat.round, decreaseExponent, Int.toNat_natCast, htarget, Int.zero_sub,
      Int.neg_neg, Nat.shiftLeft_eq]
  have hdenotes := denotes_roundWithAccuracy .positive hn (by omega) hj.le
  rw [nearestShortNat_eq_self h.le] at hdenotes
  rw [hround]
  exact hdenotes

/-- A number of at most 53 bits is not changed by a factor of one. -/
lemma Denotes.mul_one {f : UnpackedFloat} {z : Int} (hf : Denotes f z) (hz : z.natAbs < 2 ^ 53) :
    Denotes (UnpackedFloat.mul Format.binary64 f
      (.finite .positive (2 ^ 52) (-52) (Nat.two_pow_pos 52))) z := by
  cases hf with
  | zero s => exact .zero _
  | @finite s m k n _ hscaled _ =>
    have hn := hscaled.pos
    have hsign : s * .positive = s := by cases s <;> rfl
    have hnatAbs : (s.apply n).natAbs = n := by cases s <;> simp [Sign.apply]
    rw [hnatAbs] at hz
    obtain rfl := hscaled.log2_eq
    obtain ⟨j, hj⟩ := exists_eq_log2_add hn hz
    obtain rfl : m = n * 2 ^ j := by
      refine Nat.eq_of_mul_eq_mul_right (Nat.two_pow_pos n.log2) ?_
      rw [hscaled.value, Nat.mul_assoc, ← pow_add, Nat.add_comm j, ← hj]
    have hexponent : (n.log2 - 52 + -52 : Int) = -(j + 52 : Nat) := by omega
    have hbits : 52 ≤ n.log2 + (j + 52) := by omega
    have hdenotes := denotes_roundWithAccuracy s hn (by omega) hbits
    rw [nearestShortNat_eq_self hz.le, pow_add, ← Nat.mul_assoc] at hdenotes
    rw [UnpackedFloat.mul, hsign, hexponent]
    exact hdenotes

/-- The conversion of longer numbers rounds them. -/
lemma denotes_ofScientific {n : Nat} (hn : 0 < n) (hbits : n.log2 < 1023) :
    Denotes (UnpackedFloat.ofScientific Format.binary64 n 0) (nearestShortNat n) := by
  have hsmall : ¬ (0 : Int) < -(2 ^ 11 + n.log2) := by omega
  have hone : n * 2 ^ Format.binary64.mantissaBits * 10 ^ Int.toNat 0 = n * 2 ^ 53 :=
    Nat.mul_one _
  rw [UnpackedFloat.ofScientific, dif_neg hn.ne', if_neg (by decide), if_neg hsmall,
    if_pos (le_refl (0 : Int)), UnpackedFloat.mul, Nat.shiftLeft_eq, hone]
  exact denotes_roundWithAccuracy (j := 53) .positive hn hbits (by omega)

/-- The number one, as the conversion has it. -/
lemma unpack_one : Float.exactlyRepresentablePowersOfTen[0].toModel.unpack =
    .finite .positive (2 ^ 52) (-52) (Nat.two_pow_pos 52) := by
  rfl

/-- A natural number that needs at most 53 bits is converted exactly. -/
lemma denotesInt_toFloat {n : Nat} (h : n < 2 ^ 53) : DenotesInt n.toUInt64.toFloat n := by
  have hself : n.toUInt64.toNat = n := by
    rw [Nat.toUInt64_eq, UInt64.toNat_ofNat']
    omega
  have hmodel : n.toUInt64.toFloat =
      .ofModel (.pack (UnpackedFloat.normalize Format.binary64 n.toUInt64.toNat 0 .positive)) := rfl
  rw [hmodel, hself]
  exact denotesInt_ofModel (denotes_normalize h)

/-- A natural number is converted to the nearest number with 53 significant bits. -/
lemma denotesInt_ofNat {n : Nat} (h : n < 2 ^ 64) : DenotesInt (.ofNat n) (nearestShortNat n) := by
  have hofNat : Float.ofNat n = Float.ofScientific n false 0 := rfl
  rw [hofNat, Float.ofScientific]
  by_cases hshort : n < 2 ^ 53
  · rw [dif_pos ⟨hshort, by decide⟩, nearestShortNat_eq_self hshort.le]
    have hmul := Denotes.mul_one (denotesInt_toFloat hshort) hshort
    rw [← unpack_one] at hmul
    exact denotesInt_ofModel hmul
  · rw [dif_neg fun hboth => hshort hboth.1]
    have hn : 0 < n := by omega
    have hlog : n.log2 < 64 := (Nat.log2_lt hn.ne').mpr h
    exact denotesInt_ofModel (denotes_ofScientific hn (by omega))

/-- A whole number is converted to the nearest number with 53 significant bits. -/
lemma denotesInt_ofInt {n : Int} (h : n.natAbs < 2 ^ 64) :
    DenotesInt (.ofInt n) (nearestShort n) := by
  cases n with
  | ofNat n => exact denotesInt_ofNat h
  | negSucc n => exact (denotesInt_ofNat h).neg

end IssueQuery

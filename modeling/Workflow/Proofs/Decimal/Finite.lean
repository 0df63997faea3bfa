import Workflow.Proofs.Decimal.Rounding

/-!
Doubles that are finite. Sums, differences, products and quotients of the doubles nearest to whole
numbers of 64 bits are far from the greatest double, so they are finite.
-/

namespace Workflow.Decimal

open Float.Model Float.Model.UnpackedFloat

/-! ## Exponents -/

section Exponents

variable {a b : Int} {m k : Nat} {e : Int} {f : UnpackedFloat} {s : Sign} {accuracy : Accuracy}

/-- The number is zero, or its exponent is at most the bound. -/
def ExponentLe (bound : Int) : UnpackedFloat → Prop
  | .zero _ => True
  | .finite _ _ e _ => e ≤ bound
  | _ => False

theorem ExponentLe.mono (low : ExponentLe a f) (le : a ≤ b) : ExponentLe b f := by
  cases f with
  | zero s => trivial
  | finite s m e pos => exact le_trans low le
  | infinity s => exact low
  | notANumber => exact low

theorem isFinite_unpack {bits : BitVec Format.binary64.numBits} (field : unpackExponent bits ≠ -1#_) :
    (UnpackedFloat.unpack .binary64 bits).isFinite = true := by
  unfold UnpackedFloat.unpack
  rw [if_neg field]
  split
  · split <;> rfl
  · rfl

/-- Only what has an exponent above 971 is packed as infinite. -/
theorem isFinite_pack (low : ExponentLe 971 f) :
    (UnpackedFloat.unpack .binary64 (UnpackedFloat.pack .binary64 f)).isFinite = true := by
  cases f with
  | infinity s => exact low.elim
  | notANumber => exact low.elim
  | zero s =>
    show (UnpackedFloat.unpack .binary64 (packedZero .binary64 s)).isFinite = true
    rw [unpack_packedZero]
    rfl
  | finite s m e pos =>
    have low : e ≤ 971 := low
    have bias : Format.binary64.exponentBias = 1023 := by decide
    have fits : ¬2 ^ Format.binary64.exponentBits ≤
        (e + Format.binary64.exponentBias + Format.binary64.mantissaBitsWithoutImplicit).toNat + 1 := by
      rw [bias]
      simp only [Nat.not_le]
      omega
    unfold UnpackedFloat.pack
    dsimp only
    rw [if_neg fits]
    split
    · refine isFinite_unpack fun same => ?_
      rw [unpackExponent_packComponents] at same
      have same := congrArg BitVec.toNat same
      rw [BitVec.toNat_ofNat, toNat_allOnes] at same
      simp only [bias] at *
      omega
    · refine isFinite_unpack fun same => ?_
      rw [unpackExponent_packComponents] at same
      exact absurd same (by decide)

/-! ## Rounding -/

theorem mantissa_shiftRight_le (em : ExtendedMantissa) (k : Nat) : (em >>> k).mantissa ≤ em.mantissa := by
  show (Nat.repeat ExtendedMantissa.shiftRightOne k em).mantissa ≤ em.mantissa
  induction k with
  | zero => exact Nat.le_refl _
  | succ k ih => exact (Nat.div_le_self _ 2).trans ih

theorem roundedMantissa_le (em : ExtendedMantissa) : em.roundedMantissa ≤ em.mantissa + 1 := by
  unfold ExtendedMantissa.roundedMantissa Accuracy.roundToNearestEven
  split <;> omega

theorem mantissa_shiftToTargetExponent_le (m : Nat) (e : Int) (accuracy : Accuracy) :
    (shiftToTargetExponent .binary64 m e accuracy).1.mantissa ≤ m := by
  refine (mantissa_shiftRight_le _ _).trans (le_of_eq ?_)
  unfold ExtendedMantissa.ofMantissaAndAccuracy
  split <;> rfl

theorem targetExponent_eq (m : Nat) (e : Int) :
    Format.binary64.targetExponent (totalExponent m e) = max (m.log2 + e - 52) (-1074) := by
  unfold Format.targetExponent totalExponent
  rw [show Format.binary64.mantissaBits = 53 from rfl, show Format.binary64.minExponent = -1074 by decide]
  omega

theorem exponent_shiftToTargetExponent (m : Nat) (e : Int) (accuracy : Accuracy) :
    (shiftToTargetExponent .binary64 m e accuracy).2 = max e (max (m.log2 + e - 52) (-1074)) := by
  show e + ((Format.binary64.targetExponent (totalExponent m e) - e).toNat : Int) = _
  rw [targetExponent_eq]
  omega

theorem log2_succ_le (m : Nat) : (m + 1).log2 ≤ m.log2 + 1 := by
  refine Nat.le_of_lt_succ ((Nat.log2_lt (Nat.succ_ne_zero m)).mpr ?_)
  have := Nat.lt_log2_self (n := m)
  calc m + 1 ≤ 2 ^ (m.log2 + 1) := this
    _ < 2 ^ (m.log2 + 2) := Nat.pow_lt_pow_right (by decide) (Nat.lt_succ_self _)

/-- Rounding raises the exponent by no more than the digits that are dropped. -/
theorem roundWithAccuracy_exponentLe (s : Sign) (m : Nat) (e : Int) (accuracy : Accuracy) :
    ExponentLe (max (e + 2 * m.log2) (m.log2 - 1074)) (roundWithAccuracy .binary64 s m e accuracy) := by
  have first := exponent_shiftToTargetExponent m e accuracy
  have digits : (shiftToTargetExponent .binary64 m e accuracy).1.roundedMantissa.log2 ≤ m.log2 + 1 := by
    refine le_trans (log2_mono ?_) (log2_succ_le m)
    exact (roundedMantissa_le _).trans (Nat.succ_le_succ (mantissa_shiftToTargetExponent_le m e accuracy))
  unfold roundWithAccuracy
  dsimp only
  split
  · trivial
  · show (shiftToTargetExponent .binary64 _ _ .exact).2 ≤ _
    rw [exponent_shiftToTargetExponent, first]
    omega

theorem log2_shiftLeft_le (m k : Nat) : (m <<< k).log2 ≤ m.log2 + k := by
  by_cases zero : m = 0
  · subst zero
    rw [Nat.zero_shiftLeft]
    exact Nat.zero_le _
  · have pos : m <<< k ≠ 0 := by
      rw [Nat.shiftLeft_eq]
      exact Nat.mul_ne_zero zero (Nat.two_pow_pos k).ne'
    refine Nat.le_of_lt_succ ((Nat.log2_lt pos).mpr ?_)
    have := Nat.lt_log2_self (n := m)
    calc m <<< k = m * 2 ^ k := Nat.shiftLeft_eq m k
      _ < 2 ^ (m.log2 + 1) * 2 ^ k := Nat.mul_lt_mul_of_pos_right this (Nat.two_pow_pos k)
      _ = 2 ^ (m.log2 + k + 1) := by rw [← Nat.pow_add]; congr 1; omega

theorem round_exponentLe (s : Sign) (m : Nat) (e : Int) :
    ExponentLe (max (e + 2 * m.log2 + 104) (m.log2 - 1022)) (UnpackedFloat.round .binary64 s m e) := by
  unfold UnpackedFloat.round
  rw [targetExponent_eq]
  unfold decreaseExponent
  dsimp only
  refine (roundWithAccuracy_exponentLe s _ _ _).mono ?_
  have := log2_shiftLeft_le m (e - max (m.log2 + e - 52) (-1074)).toNat
  omega

theorem normalize_exponentLe (n e : Int) (s : Sign) :
    ExponentLe (max (e + 2 * n.natAbs.log2 + 104) (n.natAbs.log2 - 1022))
      (UnpackedFloat.normalize .binary64 n e s) := by
  unfold UnpackedFloat.normalize
  split
  next less =>
    rw [show n.natAbs = (-n).toNat by have := compare_lt_iff_lt.mp less; omega]
    exact round_exponentLe .negative _ e
  next => trivial
  next greater =>
    rw [show n.natAbs = n.toNat by have := compare_gt_iff_gt.mp greater; omega]
    exact round_exponentLe .positive _ e

end Exponents

/-! ## Operations -/

section Operations

variable {f g : UnpackedFloat} {bound : Int} {x y : Float} {n : Int}

/-- A number of at most 53 binary digits, the last of which counts between 2^-52 and 2^12. -/
def Moderate : UnpackedFloat → Prop
  | .zero _ => True
  | .finite _ m e _ => m < 2 ^ 53 ∧ -52 ≤ e ∧ e ≤ 12
  | _ => False

theorem Moderate.zero_or_finite (moderate : Moderate f) :
    (∃ s, f = .zero s) ∨ ∃ s m e pos, f = .finite s m e pos ∧ m < 2 ^ 53 ∧ -52 ≤ e ∧ e ≤ 12 := by
  cases f with
  | zero s => exact .inl ⟨s, rfl⟩
  | finite s m e pos => exact .inr ⟨s, m, e, pos, rfl, moderate⟩
  | infinity s => exact moderate.elim
  | notANumber => exact moderate.elim

theorem Moderate.exponentLe (moderate : Moderate f) : ExponentLe 971 f := by
  obtain ⟨s, rfl⟩ | ⟨s, m, e, pos, rfl, -, -, most⟩ := moderate.zero_or_finite
  · trivial
  · exact most.trans (by decide)

theorem log2_le_of_lt {m k : Nat} (lt : m < 2 ^ (k + 1)) : m.log2 ≤ k := by
  by_cases zero : m = 0
  · subst zero
    exact Nat.zero_le _
  · exact Nat.le_of_lt_succ ((Nat.log2_lt zero).mpr lt)

/-- Decreasing the exponent by at most 64 leaves a mantissa of at most 117 digits. -/
theorem decreaseExponent_lt {m : Nat} {e target : Int} (few : m < 2 ^ 53) (near : e ≤ target + 64) :
    (decreaseExponent m e target).1 < 2 ^ 117 := by
  unfold decreaseExponent
  dsimp only
  rw [Nat.shiftLeft_eq]
  calc m * 2 ^ (e - target).toNat
    _ ≤ m * 2 ^ 64 := Nat.mul_le_mul_left _ (Nat.pow_le_pow_right (by decide) (by omega))
    _ < 2 ^ 117 := by omega

theorem natAbs_apply (s : Sign) (n : Nat) : (s.apply n).natAbs = n := by
  cases s with
  | negative => exact (Int.natAbs_neg _).trans (Int.natAbs_natCast n)
  | positive => exact Int.natAbs_natCast n

/-- A sum or a difference of numbers brought to one exponent. -/
theorem normalize_low {n e : Int} (few : n.natAbs < 2 ^ 118) (low : e ≤ 12) :
    ExponentLe 971 (UnpackedFloat.normalize .binary64 n e .positive) := by
  have := log2_le_of_lt few
  exact (normalize_exponentLe n e .positive).mono (by omega)

/-- Sums of moderate numbers are far below the greatest double. -/
theorem add_exponentLe (moderate : Moderate f) (moderate' : Moderate g) :
    ExponentLe 971 (UnpackedFloat.add .binary64 f g) := by
  obtain ⟨s, rfl⟩ | ⟨s, m, e, pos, rfl, few, least, most⟩ := id moderate.zero_or_finite
  · obtain ⟨s', rfl⟩ | ⟨s', m', e', pos', rfl, -⟩ := id moderate'.zero_or_finite
    · show ExponentLe 971 (if s == s' then .zero s else .zero .positive)
      split <;> trivial
    · exact moderate'.exponentLe
  · obtain ⟨s', rfl⟩ | ⟨s', m', e', pos', rfl, few', least', most'⟩ := moderate'.zero_or_finite
    · exact moderate.exponentLe
    · have short := decreaseExponent_lt few (show e ≤ min e e' + 64 by omega)
      have short' := decreaseExponent_lt few' (show e' ≤ min e e' + 64 by omega)
      refine normalize_low ((Int.natAbs_add_le _ _).trans_lt ?_) (by omega)
      rw [natAbs_apply, natAbs_apply]
      exact (Nat.add_lt_add short short').trans_le (by decide)

theorem sub_exponentLe (moderate : Moderate f) (moderate' : Moderate g) :
    ExponentLe 971 (UnpackedFloat.sub .binary64 f g) := by
  obtain ⟨s, rfl⟩ | ⟨s, m, e, pos, rfl, few, least, most⟩ := id moderate.zero_or_finite
  · obtain ⟨s', rfl⟩ | ⟨s', m', e', pos', rfl, -⟩ := id moderate'.zero_or_finite
    · show ExponentLe 971 (if s == -s' then .zero s else .zero .positive)
      split <;> trivial
    · exact moderate'.exponentLe
  · obtain ⟨s', rfl⟩ | ⟨s', m', e', pos', rfl, few', least', most'⟩ := moderate'.zero_or_finite
    · exact moderate.exponentLe
    · have short := decreaseExponent_lt few (show e ≤ min e e' + 64 by omega)
      have short' := decreaseExponent_lt few' (show e' ≤ min e e' + 64 by omega)
      refine normalize_low ((Int.natAbs_sub_le _ _).trans_lt ?_) (by omega)
      rw [natAbs_apply, natAbs_apply]
      exact (Nat.add_lt_add short short').trans_le (by decide)

/-- So are their products. -/
theorem mul_exponentLe (moderate : Moderate f) (moderate' : Moderate g) :
    ExponentLe 971 (UnpackedFloat.mul .binary64 f g) := by
  obtain ⟨s, rfl⟩ | ⟨s, m, e, pos, rfl, few, -, most⟩ := moderate.zero_or_finite
  · obtain ⟨s', rfl⟩ | ⟨s', m', e', pos', rfl, -⟩ := moderate'.zero_or_finite <;> trivial
  · obtain ⟨s', rfl⟩ | ⟨s', m', e', pos', rfl, few', -, most'⟩ := moderate'.zero_or_finite
    · trivial
    · have short : (m * m').log2 ≤ 105 := by
        refine log2_le_of_lt ?_
        calc m * m' < 2 ^ 53 * 2 ^ 53 := Nat.mul_lt_mul'' few few'
          _ = 2 ^ 106 := by rw [← Nat.pow_add]
      exact (roundWithAccuracy_exponentLe (s * s') (m * m') (e + e') .exact).mono (by omega)

/-- The quotient of mantissas, with enough digits for rounding. -/
theorem divCore_le {m m' : Nat} {e e' : Int} (few : m < 2 ^ 53) (few' : m' < 2 ^ 53)
    (near : e ≤ e' + 64) :
    (divCore .binary64 m e m' e').1.log2 ≤ 157 ∧ (divCore .binary64 m e m' e').2.1 ≤ 64 := by
  have short := log2_le_of_lt few
  have short' := log2_le_of_lt few'
  have target : m.log2 + e - (m'.log2 + e') - 53 ≤
      Format.binary64.targetExponent (totalExponent m e - totalExponent m' e') := by
    unfold Format.targetExponent totalExponent
    rw [show Format.binary64.mantissaBits = 53 from rfl]
    omega
  constructor
  · refine (log2_mono (Nat.div_le_self _ _)).trans ((log2_shiftLeft_le _ _).trans ?_)
    omega
  · exact (min_le_left _ _).trans (by omega)

/-- A quotient by a number that is not zero. -/
theorem div_exponentLe (moderate : Moderate f) (moderate' : Moderate g) (nonzero : ∀ s, g ≠ .zero s) :
    ExponentLe 971 (UnpackedFloat.div .binary64 f g) := by
  obtain ⟨s', rfl⟩ | ⟨s', m', e', pos', rfl, few', least', most'⟩ := moderate'.zero_or_finite
  · exact absurd rfl (nonzero s')
  · obtain ⟨s, rfl⟩ | ⟨s, m, e, pos, rfl, few, least, most⟩ := moderate.zero_or_finite
    · trivial
    · obtain ⟨short, low⟩ := divCore_le few few' (show e ≤ e' + 64 by omega)
      exact (roundWithAccuracy_exponentLe (s / s') (divCore .binary64 m e m' e').1
        (divCore .binary64 m e m' e').2.1 (divCore .binary64 m e m' e').2.2).mono (by omega)

/-! ## Doubles of whole numbers -/

theorem moderate_neg (moderate : Moderate f) : Moderate f.neg := by
  obtain ⟨s, rfl⟩ | ⟨s, m, e, pos, rfl, bounds⟩ := id moderate.zero_or_finite
  · trivial
  · exact bounds

theorem moderate_word {n : Nat} (fits : n < 2 ^ 64) :
    Moderate (UnpackedFloat.unpack .binary64 (word (nearestBits n 1))) := by
  by_cases zero : n = 0
  · subst zero
    rw [nearestBits_zero, unpack_word_zero]
    trivial
  · have low := le_significand zero
    have high := significand_le n
    have short : n.log2 ≤ 63 := log2_le_of_lt fits
    rw [unpack_word (nearestBits_ne_zero zero fits) (nearestBits_lt fits)]
    show (Binary.ofBits (nearestBits n 1)).mantissa < 2 ^ 53 ∧
      -52 ≤ (Binary.ofBits (nearestBits n 1)).exponent ∧ (Binary.ofBits (nearestBits n 1)).exponent ≤ 12
    rw [nearestBits_one zero fits]
    unfold Binary.ofBits pattern leadingBit leastExponent
    dsimp only
    split <;> omega

/-- Whole numbers of 64 bits have moderate doubles. -/
theorem moderate_nearestInt (fits : n.natAbs < 2 ^ 64) : Moderate (nearestInt n).toModel.unpack := by
  by_cases negative : n < 0
  · rw [unpack_nearestInt_of_neg negative]
    exact moderate_neg (moderate_word fits)
  · rw [unpack_nearestInt_of_nonneg (Int.not_lt.mp negative)]
    exact moderate_word fits

theorem isFinite_add (moderate : Moderate x.toModel.unpack) (moderate' : Moderate y.toModel.unpack) :
    (x + y).isFinite = true :=
  isFinite_pack (add_exponentLe moderate moderate')

theorem isFinite_sub (moderate : Moderate x.toModel.unpack) (moderate' : Moderate y.toModel.unpack) :
    (x - y).isFinite = true :=
  isFinite_pack (sub_exponentLe moderate moderate')

theorem isFinite_mul (moderate : Moderate x.toModel.unpack) (moderate' : Moderate y.toModel.unpack) :
    (x * y).isFinite = true :=
  isFinite_pack (mul_exponentLe moderate moderate')

theorem isFinite_neg (moderate : Moderate x.toModel.unpack) : (-x).isFinite = true :=
  isFinite_pack (moderate_neg moderate).exponentLe

theorem unpack_zero : (0.0 : Float).toModel.unpack = .zero .positive :=
  rfl

theorem beq_zero_of_unpack {s : Sign} (zero : x.toModel.unpack = .zero s) : (x == 0.0) = true := by
  rw [beq_iff_compare, zero, unpack_zero]
  rfl

/-- Quotients of moderate numbers are finite, unless they are divided by zero. -/
theorem isFinite_div (moderate : Moderate x.toModel.unpack) (moderate' : Moderate y.toModel.unpack)
    (nonzero : (y == 0.0) = false) : (x / y).isFinite = true := by
  refine isFinite_pack (div_exponentLe moderate moderate' fun s zero => ?_)
  rw [beq_zero_of_unpack zero] at nonzero
  exact Bool.noConfusion nonzero

end Operations

end Workflow.Decimal

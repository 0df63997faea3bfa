import Mathlib
import Workflow.Value.Number

/-!
Doubles as sign, mantissa and exponent. A pattern of bits that is finite and has no sign unpacks to what
its fields hold, and such patterns are in the order of their numbers. What operations on doubles
compute is finite as long as its exponent stays below the greatest.
-/

namespace Workflow.Decimal

open Float.Model Float.Model.UnpackedFloat

/-! ## The fields of a pattern -/

section Patterns

variable {bits a b : Nat}

/-- The word of 64 bits that stands for a number. -/
def word (bits : Nat) : BitVec Format.binary64.numBits :=
  BitVec.ofNat 64 bits

theorem toNat_word (bits : Nat) : (word bits).toNat = bits % 2 ^ 64 :=
  BitVec.toNat_ofNat bits 64

theorem toNat_unpackExponent (bits : Nat) :
    (unpackExponent (word bits)).toNat = bits / leadingBit % 2048 := by
  rw [unpackExponent_def, BitVec.extractLsb'_toNat, toNat_word, Nat.shiftRight_eq_div_pow]
  unfold leadingBit
  dsimp only
  omega

theorem toNat_unpackMantissa (bits : Nat) :
    (unpackMantissa (word bits)).toNat = bits % leadingBit := by
  rw [unpackMantissa_def, BitVec.extractLsb'_toNat, toNat_word, Nat.shiftRight_eq_div_pow]
  unfold leadingBit
  dsimp only
  omega

theorem field_lt (finite : bits < infinityBits) : bits / leadingBit < 2047 :=
  (Nat.div_lt_iff_lt_mul (by decide)).mpr finite

theorem unpackSign_word (finite : bits < infinityBits) : unpackSign (word bits) = 0#1 := by
  apply BitVec.eq_of_toNat_eq
  rw [unpackSign_def, BitVec.extractLsb'_toNat, toNat_word, Nat.shiftRight_eq_div_pow]
  unfold infinityBits leadingBit at finite
  simp only [BitVec.toNat_ofNat]
  omega

theorem toNat_allOnes : (-BitVec.ofNat Format.binary64.exponentBits 1).toNat = 2047 := by
  decide

theorem unpackExponent_word_ne (finite : bits < infinityBits) :
    unpackExponent (word bits) ≠ -1#_ := by
  intro same
  have low := field_lt finite
  have same := congrArg BitVec.toNat same
  rw [toNat_unpackExponent, toNat_allOnes, Nat.mod_eq_of_lt (by omega)] at same
  omega

theorem mantissa_pos (pos : bits ≠ 0) (finite : bits < infinityBits) :
    0 < (Binary.ofBits bits).mantissa := by
  have low := field_lt finite
  unfold Binary.ofBits
  dsimp only
  unfold leadingBit at *
  split <;> omega

theorem unpack_word_zero : UnpackedFloat.unpack .binary64 (word 0) = .zero .positive := by
  rw [show word 0 = packedZero .binary64 .positive by decide]
  exact unpack_packedZero

/-- A finite pattern without a sign unpacks to the mantissa and the exponent in its fields. -/
theorem unpack_word (pos : bits ≠ 0) (finite : bits < infinityBits) :
    UnpackedFloat.unpack .binary64 (word bits) =
      .finite .positive (Binary.ofBits bits).mantissa (Binary.ofBits bits).exponent
        (mantissa_pos pos finite) := by
  have low := field_lt finite
  have exponent := toNat_unpackExponent bits
  rw [Nat.mod_eq_of_lt (by omega)] at exponent
  have mantissa := toNat_unpackMantissa bits
  have bias : Format.binary64.exponentBias = 1023 := by decide
  have noField : (BitVec.ofNat Format.binary64.exponentBits 0).toNat = 0 := rfl
  unfold UnpackedFloat.unpack
  rw [if_neg (unpackExponent_word_ne finite), unpackSign_word finite]
  by_cases subnormal : bits / leadingBit = 0
  · have zero : unpackExponent (word bits) = 0#_ :=
      BitVec.eq_of_toNat_eq (by rw [exponent, noField, subnormal])
    have nonzero : unpackMantissa (word bits) ≠ 0#_ := by
      intro same
      have same := congrArg BitVec.toNat same
      rw [mantissa, BitVec.toNat_ofNat, Nat.zero_mod] at same
      unfold leadingBit at *
      omega
    rw [if_pos zero, dif_neg nonzero]
    simp only [Binary.ofBits, Nat.zero_mod, mantissa, zero, noField, subnormal]
    rfl
  · have normal : unpackExponent (word bits) ≠ 0#_ := by
      intro same
      rw [same, noField] at exponent
      exact subnormal exponent.symm
    have leading : (1#1 ++ unpackMantissa (word bits)).toNat = leadingBit + bits % leadingBit := by
      rw [BitVec.toNat_append,
        ← Nat.shiftLeft_add_eq_or_of_lt (unpackMantissa (word bits)).isLt, mantissa]
      rfl
    rw [if_neg normal]
    simp only [Binary.ofBits, leading, exponent, bias, subnormal, if_false,
      Nat.mod_eq_of_lt (show bits / leadingBit < 2048 by omega)]
    congr 1
    unfold leastExponent
    push_cast
    omega

/-- Patterns compare as their exponents do, and where these are the same as their mantissas. -/
theorem fields_lt (less : a < b) (finite : b < infinityBits) :
    (Binary.ofBits a).exponent < (Binary.ofBits b).exponent ∨
      (Binary.ofBits a).exponent = (Binary.ofBits b).exponent ∧
        (Binary.ofBits a).mantissa < (Binary.ofBits b).mantissa := by
  have low := field_lt finite
  have le : a / leadingBit ≤ b / leadingBit := Nat.div_le_div_right less.le
  unfold Binary.ofBits leastExponent
  rw [Nat.mod_eq_of_lt (show a / leadingBit < 2048 by omega),
    Nat.mod_eq_of_lt (show b / leadingBit < 2048 by omega)]
  dsimp only
  unfold leadingBit at *
  split <;> split <;> omega

/-- Finite patterns without a sign are in the order of their numbers. -/
theorem compare_word (finiteA : a < infinityBits) (finiteB : b < infinityBits) :
    (UnpackedFloat.unpack .binary64 (word a)).compare (UnpackedFloat.unpack .binary64 (word b)) =
      some (compare a b) := by
  by_cases zeroA : a = 0
  · subst zeroA
    by_cases zeroB : b = 0
    · subst zeroB
      rw [unpack_word_zero]
      rfl
    · rw [unpack_word_zero, unpack_word zeroB finiteB,
        compare_lt_iff_lt.mpr (Nat.pos_of_ne_zero zeroB)]
      rfl
  · by_cases zeroB : b = 0
    · subst zeroB
      rw [unpack_word_zero, unpack_word zeroA finiteA,
        compare_gt_iff_gt.mpr (Nat.pos_of_ne_zero zeroA)]
      rfl
    · rw [unpack_word zeroA finiteA, unpack_word zeroB finiteB]
      unfold UnpackedFloat.compare
      obtain less | same | greater := Nat.lt_trichotomy a b
      · obtain lower | ⟨level, smaller⟩ := fields_lt less finiteB
        · rw [compare_lt_iff_lt.mpr lower, compare_lt_iff_lt.mpr less]
          rfl
        · rw [compare_eq_iff_eq.mpr level, compare_lt_iff_lt.mpr smaller, compare_lt_iff_lt.mpr less]
          rfl
      · subst same
        rw [compare_eq_iff_eq.mpr rfl, compare_eq_iff_eq.mpr rfl, compare_eq_iff_eq.mpr rfl]
        rfl
      · obtain lower | ⟨level, smaller⟩ := fields_lt greater finiteA
        · rw [compare_gt_iff_gt.mpr lower, compare_gt_iff_gt.mpr greater]
          rfl
        · rw [compare_eq_iff_eq.mpr level.symm, compare_gt_iff_gt.mpr smaller,
            compare_gt_iff_gt.mpr greater]
          rfl

end Patterns

/-! ## Doubles -/

section Doubles

variable {x y z : Float}

/-- The order of doubles is that of what they stand for. -/
theorem lt_iff_compare : x < y ↔ x.toModel.unpack.compare y.toModel.unpack = some .lt := by
  show decide (x.toModel.unpack.lt y.toModel.unpack = true) = true ↔ _
  rw [decide_eq_true_iff]
  unfold UnpackedFloat.lt
  exact beq_iff_eq

/-- Equality of doubles is that of what they stand for. -/
theorem beq_iff_compare :
    (x == y) = true ↔ x.toModel.unpack.compare y.toModel.unpack = some .eq := by
  show x.toModel.unpack.beq y.toModel.unpack = true ↔ _
  unfold UnpackedFloat.beq
  exact beq_iff_eq

theorem beq_symm (equal : (x == y) = true) : (y == x) = true := by
  rw [Float.beq_iff_ne_nan_and_eq] at *
  grind

/-- Only what is no number is not equal to itself, so equality of doubles is transitive. -/
theorem beq_trans (first : (x == y) = true) (second : (y == z) = true) : (x == z) = true := by
  rw [Float.beq_iff_ne_nan_and_eq] at *
  grind

theorem beq_self_of_finite (finite : x.isFinite = true) : (x == x) = true := by
  refine Float.beq_self_iff.mpr fun nan => ?_
  subst nan
  revert finite
  decide

/-- Packing loses nothing that has been unpacked. -/
theorem unpack_pack_unpack (b : BitVec Format.binary64.numBits) :
    UnpackedFloat.unpack .binary64
        (UnpackedFloat.pack .binary64 (UnpackedFloat.unpack .binary64 b)) =
      UnpackedFloat.unpack .binary64 b := by
  rw [pack_unpack]
  split
  next nan =>
    obtain ⟨allOnes, nonzero⟩ := of_decide_eq_true nan
    rw [unpack_packedNaN]
    unfold UnpackedFloat.unpack
    rw [if_pos allOnes, if_neg nonzero]
  next => rfl

theorem unpack_ofBits (bits : Nat) :
    (Float.ofBits (UInt64.ofNat bits)).toModel.unpack =
      UnpackedFloat.unpack .binary64 (word bits) :=
  unpack_pack_unpack (word bits)

theorem unpack_packComponents_neg (s : Sign) (e : BitVec Format.binary64.exponentBits)
    (m : BitVec Format.binary64.mantissaBitsWithoutImplicit) :
    UnpackedFloat.unpack .binary64 (packComponents .binary64 (-s) e m) =
      (UnpackedFloat.unpack .binary64 (packComponents .binary64 s e m)).neg := by
  unfold UnpackedFloat.unpack
  simp only [unpackExponent_packComponents, unpackMantissa_packComponents,
    UnpackedFloat.unpackSign_packComponents, Sign.ofBitVec_toBitVec]
  split
  · split <;> rfl
  · split
    · split <;> rfl
    · rfl

/-- The minus sign changes nothing but the sign. -/
theorem unpack_neg (x : Float) : (-x).toModel.unpack = x.toModel.unpack.neg := by
  show UnpackedFloat.unpack .binary64 (UnpackedFloat.pack .binary64
    (UnpackedFloat.unpack .binary64 x.toModel.toBits.toBitVec).neg) =
    (UnpackedFloat.unpack .binary64 x.toModel.toBits.toBitVec).neg
  rw [← @packComponents_unpackSign_unpackExponent_unpackMantissa .binary64
      x.toModel.toBits.toBitVec,
    ← unpack_packComponents_neg, unpack_pack_unpack]

theorem compare_neg_neg {m₁ m₂ : Nat} {e₁ e₂ : Int} (h₁ : 0 < m₁) (h₂ : 0 < m₂) :
    (UnpackedFloat.finite .positive m₁ e₁ h₁).neg.compare
        (UnpackedFloat.finite .positive m₂ e₂ h₂).neg =
      (UnpackedFloat.finite .positive m₂ e₂ h₂).compare (.finite .positive m₁ e₁ h₁) := by
  show some ((compare e₁ e₂).then (compare m₁ m₂)).swap =
    some ((compare e₂ e₁).then (compare m₂ m₁))
  rw [Ordering.swap_then, Int.compare_swap, Nat.compare_swap]

end Doubles

end Workflow.Decimal

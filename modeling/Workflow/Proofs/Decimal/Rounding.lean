import Workflow.Proofs.Decimal.Doubles

/-!
Whole numbers as doubles. The double nearest to a whole number of 64 bits has the value of the
number rounded to 53 binary digits, a tie going to the even one (`roundInt`), so the doubles are in
the order of the rounded numbers. Rounding keeps the order, and leaves alone what has at most 53
digits.
-/

namespace Workflow.Decimal

/-! ## Quotients -/

section Quotients

variable {m n a b d : Nat}

theorem le_divideToEven (n d : Nat) : n / d ≤ divideToEven n d := by
  unfold divideToEven
  dsimp only
  split
  · exact Nat.le_refl _
  · split
    · exact Nat.le_succ _
    · split
      · exact Nat.le_refl _
      · exact Nat.le_succ _

theorem divideToEven_le (n d : Nat) : divideToEven n d ≤ n / d + 1 := by
  unfold divideToEven
  dsimp only
  split
  · exact Nat.le_succ _
  · split
    · exact Nat.le_refl _
    · split
      · exact Nat.le_succ _
      · exact Nat.le_refl _

/-- Division to the nearest keeps the order. -/
theorem divideToEven_mono (le : m ≤ n) : divideToEven m d ≤ divideToEven n d := by
  have quotients : m / d ≤ n / d := Nat.div_le_div_right le
  by_cases same : m / d = n / d
  · have rests : m % d ≤ n % d := by
      have := Nat.div_add_mod m d
      have := Nat.div_add_mod n d
      rw [same] at *
      omega
    unfold divideToEven
    rw [same]
    dsimp only
    split <;> split <;> (try split) <;> (try split) <;> (try split) <;> omega
  · calc divideToEven m d ≤ m / d + 1 := divideToEven_le m d
      _ ≤ n / d := by omega
      _ ≤ divideToEven n d := le_divideToEven n d

theorem divideToEven_mul (n : Nat) (pos : 0 < d) : divideToEven (n * d) d = n := by
  unfold divideToEven
  simp only [Nat.mul_mod_left, Nat.mul_div_cancel n pos]
  rw [if_pos (by omega)]

end Quotients

/-! ## Rounding -/

section Rounding

variable {a b n : Nat}

/-- The first 53 binary digits of a number, as a number of that many digits; what follows them is
rounded off to the nearest, or at a tie to the even one. -/
def significand (n : Nat) : Nat :=
  if n.log2 ≤ 52 then n * 2 ^ (52 - n.log2) else divideToEven n (2 ^ (n.log2 - 52))

/-- The number rounded to 53 binary digits. -/
def roundNat (n : Nat) : Nat :=
  if n.log2 ≤ 52 then n else divideToEven n (2 ^ (n.log2 - 52)) * 2 ^ (n.log2 - 52)

/-- The rounded number by its digits: 53 of them, and zeros behind them. -/
theorem roundNat_mul (n : Nat) : roundNat n * 2 ^ 52 = significand n * 2 ^ n.log2 := by
  unfold roundNat significand
  split
  next few =>
    rw [Nat.mul_assoc, ← Nat.pow_add, Nat.sub_add_cancel few]
  next many =>
    rw [Nat.mul_assoc, ← Nat.pow_add, Nat.sub_add_cancel (by omega)]

theorem log2_mono (le : a ≤ b) : a.log2 ≤ b.log2 := by
  by_cases zero : a = 0
  · subst zero
    exact Nat.zero_le _
  · exact (Nat.le_log2 (by omega)).mpr (Nat.le_trans (Nat.log2_self_le zero) le)

theorem le_significand (pos : n ≠ 0) : 2 ^ 52 ≤ significand n := by
  have low := Nat.log2_self_le pos
  unfold significand
  split
  next few =>
    calc 2 ^ 52 = 2 ^ n.log2 * 2 ^ (52 - n.log2) := by rw [← Nat.pow_add, Nat.add_sub_cancel' few]
      _ ≤ n * 2 ^ (52 - n.log2) := Nat.mul_le_mul_right _ low
  next many =>
    refine Nat.le_trans ?_ (le_divideToEven _ _)
    rw [Nat.le_div_iff_mul_le (Nat.two_pow_pos _), ← Nat.pow_add, Nat.add_sub_cancel' (by omega)]
    exact low

theorem significand_le (n : Nat) : significand n ≤ 2 ^ 53 := by
  have high : n < 2 ^ (n.log2 + 1) := Nat.lt_log2_self
  unfold significand
  split
  next few =>
    calc n * 2 ^ (52 - n.log2) ≤ 2 ^ (n.log2 + 1) * 2 ^ (52 - n.log2) := Nat.mul_le_mul_right _ high.le
      _ = 2 ^ 53 := by rw [← Nat.pow_add]; congr 1; omega
  next many =>
    refine Nat.le_trans (divideToEven_le _ _) ?_
    refine Nat.succ_le_of_lt ?_
    rw [Nat.div_lt_iff_lt_mul (Nat.two_pow_pos _), ← Nat.pow_add]
    rwa [show 53 + (n.log2 - 52) = n.log2 + 1 by omega]

/-- A shorter number is not rounded to more, and comes to the same as a longer one just where it is
rounded up to the next length, and the longer one is rounded down to it. -/
theorem roundNat_of_log2_lt (pos : b ≠ 0) (shorter : a.log2 < b.log2) :
    roundNat a ≤ roundNat b ∧
      (roundNat a = roundNat b ↔
        b.log2 = a.log2 + 1 ∧ significand a = 2 ^ 53 ∧ significand b = 2 ^ 52) := by
  have high := significand_le a
  have low := le_significand pos
  have atA := roundNat_mul a
  have atB := roundNat_mul b
  have steps : 2 ^ b.log2 = 2 ^ (b.log2 - a.log2) * 2 ^ a.log2 := by
    rw [← Nat.pow_add, Nat.sub_add_cancel shorter.le]
  have wide : 2 ^ 1 ≤ 2 ^ (b.log2 - a.log2) := Nat.pow_le_pow_right (by decide) (by omega)
  refine ⟨?_, fun same => ?_, fun ⟨next, full, least⟩ => ?_⟩
  · refine Nat.le_of_mul_le_mul_right ?_ (Nat.two_pow_pos 52)
    calc roundNat a * 2 ^ 52 = significand a * 2 ^ a.log2 := atA
      _ ≤ 2 ^ 52 * 2 ^ 1 * 2 ^ a.log2 := Nat.mul_le_mul_right _ (by omega)
      _ ≤ significand b * 2 ^ (b.log2 - a.log2) * 2 ^ a.log2 :=
        Nat.mul_le_mul_right _ (Nat.mul_le_mul low wide)
      _ = roundNat b * 2 ^ 52 := by rw [atB, steps, Nat.mul_assoc]
  · have same : significand a = significand b * 2 ^ (b.log2 - a.log2) := by
      refine Nat.eq_of_mul_eq_mul_right (Nat.two_pow_pos a.log2) ?_
      rw [← atA, same, atB, steps, Nat.mul_assoc]
    have narrow : 2 ^ (b.log2 - a.log2) = 2 := by
      have := Nat.mul_le_mul_right (2 ^ (b.log2 - a.log2)) low
      omega
    have one : b.log2 - a.log2 = 1 := Nat.pow_right_injective (Nat.le_refl 2) narrow
    rw [narrow] at same
    omega
  · refine Nat.eq_of_mul_eq_mul_right (Nat.two_pow_pos 52) ?_
    rw [atA, atB, full, least, next, Nat.pow_succ]
    omega

/-- Of numbers of one length, the greater one has no smaller digits. -/
theorem significand_mono (le : a ≤ b) (same : a.log2 = b.log2) : significand a ≤ significand b := by
  unfold significand
  rw [same]
  split
  · exact Nat.mul_le_mul_right _ le
  · exact divideToEven_mono le

theorem roundNat_le_iff_of_log2_eq (same : a.log2 = b.log2) :
    roundNat a ≤ roundNat b ↔ significand a ≤ significand b := by
  have atA := roundNat_mul a
  have atB := roundNat_mul b
  rw [← Nat.mul_le_mul_right_iff (Nat.two_pow_pos 52), atA, atB, same,
    Nat.mul_le_mul_right_iff (Nat.two_pow_pos _)]

/-- Rounding keeps the order. -/
theorem roundNat_mono (le : a ≤ b) : roundNat a ≤ roundNat b := by
  obtain shorter | same := (log2_mono le).lt_or_eq
  · refine (roundNat_of_log2_lt ?_ shorter).1
    rintro rfl
    exact absurd shorter (Nat.not_lt_zero _)
  · exact (roundNat_le_iff_of_log2_eq same).mpr (significand_mono le same)

/-- A number of at most 53 binary digits is not rounded. -/
theorem roundNat_eq_self (short : n ≤ 2 ^ 53) : roundNat n = n := by
  unfold roundNat
  split
  next => rfl
  next many =>
    have reached : n = 2 ^ 53 := by
      have := Nat.log2_self_le (n := n) (by rintro rfl; exact many (by decide))
      have := Nat.pow_le_pow_right (n := 2) (by decide) (show 53 ≤ n.log2 by omega)
      omega
    subst reached
    decide

/-- The pattern of bits of the rounded number: the field of its exponent, and the digits of its
significand, the first of which adds one to the field. -/
def pattern (n : Nat) : Nat :=
  (n.log2 + 1022) * 2 ^ 52 + significand n

/-- Patterns are in the order of the rounded numbers. -/
theorem pattern_lt_iff (apos : a ≠ 0) (bpos : b ≠ 0) :
    pattern a < pattern b ↔ roundNat a < roundNat b := by
  have highA := significand_le a
  have lowA := le_significand apos
  have highB := significand_le b
  have lowB := le_significand bpos
  unfold pattern
  obtain shorter | same | longer := Nat.lt_trichotomy a.log2 b.log2
  · obtain ⟨le, iff⟩ := roundNat_of_log2_lt bpos shorter
    rw [le.lt_iff_ne, ne_eq, iff]
    omega
  · rw [← Nat.not_le, ← Nat.not_le, roundNat_le_iff_of_log2_eq same.symm, same]
    omega
  · obtain ⟨le, _⟩ := roundNat_of_log2_lt apos longer
    rw [← Nat.not_le, ← Nat.not_le]
    omega

theorem binaryOrder_one (pos : n ≠ 0) : binaryOrder n 1 = n.log2 := by
  have low := Nat.log2_self_le pos
  unfold binaryOrder
  rw [show Nat.log2 1 = 0 by decide]
  simp [low, twoTo]

theorem pattern_lt (fits : n < 2 ^ 64) : pattern n < infinityBits := by
  have high := significand_le n
  have short : n.log2 ≤ 63 := (log2_mono (Nat.le_pred_of_lt fits)).trans (by decide)
  unfold pattern infinityBits leadingBit
  omega

theorem divideToEven_one (n : Nat) : divideToEven n 1 = n := by
  simpa using divideToEven_mul n Nat.one_pos

/-- The double nearest to a number has the pattern of the rounded number. -/
theorem nearestBits_one (pos : n ≠ 0) (fits : n < 2 ^ 64) : nearestBits n 1 = pattern n := by
  have bound := pattern_lt fits
  have unit : max ((n.log2 : Int) - 52) leastExponent = n.log2 - 52 :=
    max_eq_left (by unfold leastExponent; omega)
  have digits : (if 0 ≤ (n.log2 : Int) - 52 then divideToEven n (1 * twoTo (n.log2 - 52))
      else divideToEven (n * twoTo (-(n.log2 - 52))) 1) = significand n := by
    unfold significand twoTo
    obtain few | exact_ | many := Nat.lt_trichotomy n.log2 52
    · rw [if_neg (by omega), if_pos few.le, divideToEven_one,
        show (-((n.log2 : Int) - 52)).toNat = 52 - n.log2 by omega]
      rfl
    · simp [exact_, divideToEven_one]
    · rw [if_pos (by omega), if_neg (by omega), Nat.one_mul,
        show ((n.log2 : Int) - 52).toNat = n.log2 - 52 by omega]
      rfl
  have field : ((n.log2 : Int) - 52 - leastExponent).toNat = n.log2 + 1022 := by
    unfold leastExponent
    omega
  unfold nearestBits
  rw [if_neg pos, binaryOrder_one pos]
  dsimp only
  rw [unit, digits, field]
  exact Nat.min_eq_left bound.le

theorem roundNat_zero : roundNat 0 = 0 :=
  roundNat_eq_self (Nat.zero_le _)

theorem roundNat_pos (pos : n ≠ 0) : 0 < roundNat n := by
  calc 0 < 1 := Nat.one_pos
    _ = roundNat 1 := (roundNat_eq_self (by decide)).symm
    _ ≤ roundNat n := roundNat_mono (Nat.pos_of_ne_zero pos)

theorem nearestBits_zero : nearestBits 0 1 = 0 :=
  rfl

theorem nearestBits_lt (fits : n < 2 ^ 64) : nearestBits n 1 < infinityBits := by
  by_cases zero : n = 0
  · subst zero
    decide
  · rw [nearestBits_one zero fits]
    exact pattern_lt fits

theorem nearestBits_ne_zero (pos : n ≠ 0) (fits : n < 2 ^ 64) : nearestBits n 1 ≠ 0 := by
  have low := le_significand pos
  rw [nearestBits_one pos fits]
  unfold pattern
  omega

/-- Patterns of doubles are in the order of the rounded numbers. -/
theorem nearestBits_lt_iff (fitsA : a < 2 ^ 64) (fitsB : b < 2 ^ 64) :
    nearestBits a 1 < nearestBits b 1 ↔ roundNat a < roundNat b := by
  by_cases zeroB : b = 0
  · subst zeroB
    simp [nearestBits_zero, roundNat_zero]
  · by_cases zeroA : a = 0
    · subst zeroA
      have := nearestBits_ne_zero zeroB fitsB
      have := roundNat_pos zeroB
      rw [nearestBits_zero, roundNat_zero]
      omega
    · rw [nearestBits_one zeroA fitsA, nearestBits_one zeroB fitsB, pattern_lt_iff zeroA zeroB]

theorem compare_nearestBits (fitsA : a < 2 ^ 64) (fitsB : b < 2 ^ 64) :
    compare (nearestBits a 1) (nearestBits b 1) = compare (roundNat a) (roundNat b) := by
  have less := nearestBits_lt_iff fitsA fitsB
  have greater := nearestBits_lt_iff fitsB fitsA
  obtain h | h | h := Nat.lt_trichotomy (roundNat a) (roundNat b)
  · rw [compare_lt_iff_lt.mpr h, compare_lt_iff_lt.mpr (less.mpr h)]
  · rw [compare_eq_iff_eq.mpr h, compare_eq_iff_eq.mpr (by omega)]
  · rw [compare_gt_iff_gt.mpr h, compare_gt_iff_gt.mpr (greater.mpr h)]

end Rounding

/-! ## Signed numbers -/

section Signed

variable {x y n : Int}

/-- The whole number rounded to 53 binary digits; its sign stays. -/
def roundInt (n : Int) : Int :=
  if n < 0 then -roundNat n.natAbs else roundNat n.natAbs

theorem roundInt_of_neg (negative : n < 0) : roundInt n = -roundNat n.natAbs :=
  if_pos negative

theorem roundInt_of_nonneg (nonneg : 0 ≤ n) : roundInt n = roundNat n.natAbs :=
  if_neg (Int.not_lt.mpr nonneg)

theorem roundInt_neg (negative : n < 0) : roundInt n < 0 := by
  have := roundNat_pos (n := n.natAbs) (by omega)
  rw [roundInt_of_neg negative]
  omega

theorem roundInt_nonneg (nonneg : 0 ≤ n) : 0 ≤ roundInt n := by
  rw [roundInt_of_nonneg nonneg]
  exact Int.natCast_nonneg _

/-- Rounding keeps the order. -/
theorem roundInt_mono (le : x ≤ y) : roundInt x ≤ roundInt y := by
  by_cases negY : y < 0
  · have := roundNat_mono (show y.natAbs ≤ x.natAbs by omega)
    rw [roundInt_of_neg negY, roundInt_of_neg (by omega)]
    omega
  · by_cases negX : x < 0
    · have := roundInt_neg negX
      have := roundInt_nonneg (Int.not_lt.mp negY)
      omega
    · have := roundNat_mono (show x.natAbs ≤ y.natAbs by omega)
      rw [roundInt_of_nonneg (by omega), roundInt_of_nonneg (by omega)]
      omega

/-- Whole numbers of at most 53 binary digits are not rounded. -/
theorem roundInt_eq_self (short : n.natAbs ≤ 2 ^ 53) : roundInt n = n := by
  unfold roundInt
  rw [roundNat_eq_self short]
  split <;> omega

theorem nearestInt_of_neg (negative : n < 0) :
    nearestInt n = -Float.ofBits (UInt64.ofNat (nearestBits n.natAbs 1)) :=
  if_pos negative

theorem nearestInt_of_nonneg (nonneg : 0 ≤ n) :
    nearestInt n = Float.ofBits (UInt64.ofNat (nearestBits n.natAbs 1)) :=
  if_neg (Int.not_lt.mpr nonneg)

theorem unpack_nearestInt_of_neg (negative : n < 0) :
    (nearestInt n).toModel.unpack =
      (Float.Model.UnpackedFloat.unpack .binary64 (word (nearestBits n.natAbs 1))).neg := by
  rw [nearestInt_of_neg negative, unpack_neg, unpack_ofBits]

theorem unpack_nearestInt_of_nonneg (nonneg : 0 ≤ n) :
    (nearestInt n).toModel.unpack =
      Float.Model.UnpackedFloat.unpack .binary64 (word (nearestBits n.natAbs 1)) := by
  rw [nearestInt_of_nonneg nonneg, unpack_ofBits]

theorem compare_natCast (a b : Nat) : compare (a : Int) (b : Int) = compare a b := by
  simp only [compare, compareOfLessAndEq, Int.ofNat_lt, Int.natCast_inj]

theorem compare_neg (x y : Int) : compare (-x) (-y) = compare y x := by
  simp only [compare, compareOfLessAndEq, Int.neg_lt_neg_iff, Int.neg_inj, eq_comm (a := x)]

/-- The doubles nearest to whole numbers of 64 bits are in the order of the rounded numbers. -/
theorem compare_nearestInt (fitsX : x.natAbs < 2 ^ 64) (fitsY : y.natAbs < 2 ^ 64) :
    (nearestInt x).toModel.unpack.compare (nearestInt y).toModel.unpack =
      some (compare (roundInt x) (roundInt y)) := by
  have finiteX := nearestBits_lt fitsX
  have finiteY := nearestBits_lt fitsY
  by_cases negX : x < 0 <;> by_cases negY : y < 0
  · have someX := nearestBits_ne_zero (by omega) fitsX
    have someY := nearestBits_ne_zero (by omega) fitsY
    rw [unpack_nearestInt_of_neg negX, unpack_nearestInt_of_neg negY, unpack_word someX finiteX,
      unpack_word someY finiteY, compare_neg_neg, ← unpack_word someX finiteX,
      ← unpack_word someY finiteY, compare_word finiteY finiteX, compare_nearestBits fitsY fitsX,
      roundInt_of_neg negX, roundInt_of_neg negY, compare_neg, compare_natCast]
  · have someX := nearestBits_ne_zero (by omega) fitsX
    have less := (roundInt_neg negX).trans_le (roundInt_nonneg (Int.not_lt.mp negY))
    rw [unpack_nearestInt_of_neg negX, unpack_nearestInt_of_nonneg (Int.not_lt.mp negY),
      unpack_word someX finiteX, compare_lt_iff_lt.mpr less]
    by_cases zeroY : nearestBits y.natAbs 1 = 0
    · rw [zeroY, unpack_word_zero]
      rfl
    · rw [unpack_word zeroY finiteY]
      rfl
  · have someY := nearestBits_ne_zero (by omega) fitsY
    have greater := (roundInt_neg negY).trans_le (roundInt_nonneg (Int.not_lt.mp negX))
    rw [unpack_nearestInt_of_nonneg (Int.not_lt.mp negX), unpack_nearestInt_of_neg negY,
      unpack_word someY finiteY, compare_gt_iff_gt.mpr greater]
    by_cases zeroX : nearestBits x.natAbs 1 = 0
    · rw [zeroX, unpack_word_zero]
      rfl
    · rw [unpack_word zeroX finiteX]
      rfl
  · rw [unpack_nearestInt_of_nonneg (Int.not_lt.mp negX),
      unpack_nearestInt_of_nonneg (Int.not_lt.mp negY), compare_word finiteX finiteY,
      compare_nearestBits fitsX fitsY, roundInt_of_nonneg (Int.not_lt.mp negX),
      roundInt_of_nonneg (Int.not_lt.mp negY), compare_natCast]

end Signed

/-! ## Whole numbers of 64 bits -/

theorem natAbs_lt (n : Whole) : n.val.natAbs < 2 ^ 64 := by
  have := n.inRange
  omega

/-- Doubles of whole numbers are equal just if the numbers are rounded to the same. -/
theorem beq_nearestInt_iff (x y : Whole) :
    (nearestInt x.val == nearestInt y.val) = true ↔ roundInt x.val = roundInt y.val := by
  rw [beq_iff_compare, compare_nearestInt (natAbs_lt x) (natAbs_lt y), Option.some.injEq,
    compare_eq_iff_eq]

/-- They are in the order of the rounded numbers. -/
theorem nearestInt_lt_iff (x y : Whole) :
    nearestInt x.val < nearestInt y.val ↔ roundInt x.val < roundInt y.val := by
  rw [lt_iff_compare, compare_nearestInt (natAbs_lt x) (natAbs_lt y), Option.some.injEq,
    compare_lt_iff_lt]

end Workflow.Decimal

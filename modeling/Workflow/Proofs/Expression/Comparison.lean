import Mathlib
import Workflow.Proofs.Decimal.Rounding
import Workflow.Proofs.Dialect.Interpolation

/-!
Comparisons of whole numbers. Both sides are taken as doubles first, so an answer is that of the numbers
rounded to 53 binary digits. It is that of the numbers themselves for equal numbers, and for different
ones just where rounding tells them apart.
-/

namespace Workflow

open Decimal

namespace Expression

variable {data : Value} {l r : Expression} {op : BinaryOp} {relation : Int → Int → Prop}

/-- An operator that reads both its operands has the value of the operator between their values. -/
theorem evaluate_binary {left right : Value} (strict : op ≠ .and ∧ op ≠ .or)
    (first : evaluate data l = .ok left) (second : evaluate data r = .ok right) :
    evaluate data (.binary op l r) = orFault (applyBinary op left right) := by
  unfold evaluate
  simp only [first, second, strict.1, strict.2, false_and, if_false]

/-! ## Two whole numbers -/

section Pairs

variable {x y : Whole}

/-- The relation between integers that a comparison asks for. -/
inductive Compares : BinaryOp → (Int → Int → Prop) → Prop where
  | equal : Compares .equal fun m n => m = n
  | unequal : Compares .unequal fun m n => m ≠ n
  | less : Compares .less fun m n => m < n
  | atMost : Compares .atMost fun m n => m ≤ n
  | greater : Compares .greater fun m n => m > n
  | atLeast : Compares .atLeast fun m n => m ≥ n

theorem Compares.strict (comparison : Compares op relation) : op ≠ .and ∧ op ≠ .or := by
  cases comparison <;> decide

/-- Whole numbers are equal where they are rounded to the same double. -/
theorem equals_ofWhole (x y : Whole) :
    equals (.ofWhole x) (.ofWhole y) = true ↔ roundInt x.val = roundInt y.val :=
  beq_nearestInt_iff x y

/-- They are ordered as they are rounded. -/
theorem compare_ofWhole (x y : Whole) :
    compare (.ofWhole x) (.ofWhole y) = .ok (Ord.compare (roundInt x.val) (roundInt y.val)) := by
  show (if nearestInt x.val < nearestInt y.val then Except.ok Ordering.lt
    else if nearestInt x.val == nearestInt y.val then Except.ok Ordering.eq
    else if nearestInt y.val < nearestInt x.val then Except.ok Ordering.gt
    else Except.error Mismatch.incomparable) = _
  simp only [nearestInt_lt_iff, beq_nearestInt_iff]
  obtain less | same | greater := Int.lt_trichotomy (roundInt x.val) (roundInt y.val)
  · rw [if_pos less, compare_lt_iff_lt.mpr less]
  · rw [if_neg (by omega), if_pos same, compare_eq_iff_eq.mpr same]
  · rw [if_neg (by omega), if_neg (by omega), if_pos greater, compare_gt_iff_gt.mpr greater]

/-- The order of the operands answers the four comparisons that ask for it. -/
theorem applyBinary_of_compare {left right : Value} {o : Ordering}
    (ordered : compare left right = .ok o) :
    applyBinary .less left right = .ok (.bool (o == .lt)) ∧
      applyBinary .atMost left right = .ok (.bool (o != .gt)) ∧
      applyBinary .greater left right = .ok (.bool (o == .gt)) ∧
      applyBinary .atLeast left right = .ok (.bool (o != .lt)) := by
  simp only [applyBinary, ordered]
  exact ⟨rfl, rfl, rfl, rfl⟩

theorem applyBinary_ofWhole (comparison : Compares op relation) (x y : Whole) :
    ∃ b, applyBinary op (.ofWhole x) (.ofWhole y) = .ok (.bool b) ∧
      (b = true ↔ relation (roundInt x.val) (roundInt y.val)) := by
  obtain ⟨less, atMost, greater, atLeast⟩ := applyBinary_of_compare (compare_ofWhole x y)
  cases comparison with
  | equal => exact ⟨_, rfl, equals_ofWhole x y⟩
  | unequal =>
    refine ⟨_, rfl, ?_⟩
    rw [Bool.not_eq_true', ← Bool.not_eq_true]
    exact not_congr (equals_ofWhole x y)
  | less => exact ⟨_, less, beq_iff_eq.trans compare_lt_iff_lt⟩
  | atMost => exact ⟨_, atMost, bne_iff_ne.trans compare_le_iff_le⟩
  | greater => exact ⟨_, greater, beq_iff_eq.trans compare_gt_iff_gt⟩
  | atLeast => exact ⟨_, atLeast, bne_iff_ne.trans compare_ge_iff_ge⟩

/-- A comparison of whole numbers answers for the rounded numbers. -/
theorem evaluate_comparison (comparison : Compares op relation)
    (left : evaluate data l = .ok (.ofWhole x)) (right : evaluate data r = .ok (.ofWhole y)) :
    ∃ b, evaluate data (.binary op l r) = .ok (.bool b) ∧
      (b = true ↔ relation (roundInt x.val) (roundInt y.val)) := by
  obtain ⟨b, applied, answer⟩ := applyBinary_ofWhole comparison x y
  refine ⟨b, ?_, answer⟩
  rw [evaluate_binary comparison.strict left right, applied]
  rfl

end Pairs

/-! ## Membership -/

section Members

variable {x : Whole} {ys : List Whole}

theorem isMember_ofWhole (x : Whole) (ys : List Whole) :
    ∃ b, isMember (.ofWhole x) (.list (ys.map .ofWhole)) = .ok b ∧
      (b = true ↔ ∃ y ∈ ys, roundInt y.val = roundInt x.val) := by
  refine ⟨_, rfl, ?_⟩
  rw [List.any_map, List.any_eq_true]
  simp only [Function.comp_apply, equals_ofWhole]

/-- Membership in a list of whole numbers answers for the rounded numbers. -/
theorem evaluate_member (left : evaluate data l = .ok (.ofWhole x))
    (right : evaluate data r = .ok (.list (ys.map .ofWhole))) :
    ∃ b, evaluate data (.binary .member l r) = .ok (.bool b) ∧
      (b = true ↔ ∃ y ∈ ys, roundInt y.val = roundInt x.val) := by
  obtain ⟨b, found, answer⟩ := isMember_ofWhole x ys
  refine ⟨b, ?_, answer⟩
  rw [evaluate_binary (by decide) left right]
  show orFault ((isMember (.ofWhole x) (.list (ys.map .ofWhole))).map Value.bool) = _
  rw [found]
  rfl

end Members

/-! ## Where the answers are those of the integers -/

section Integers

variable {x y : Whole} {ys : List Whole} {items : Expression}

/-- All comparisons of the two expressions answer as the comparisons of the integers. -/
def ComparesAs (data : Value) (l r : Expression) (x y : Int) : Prop :=
  ∀ {op relation}, Compares op relation →
    ∃ b, evaluate data (.binary op l r) = .ok (.bool b) ∧ (b = true ↔ relation x y)

/-- The membership of the one expression in the other answers as that of the integer in the list. -/
def MemberAs (data : Value) (l items : Expression) (x : Int) (ys : List Int) : Prop :=
  ∃ b, evaluate data (.binary .member l items) = .ok (.bool b) ∧ (b = true ↔ x ∈ ys)

/-- So comparisons are right just where rounding does not make two numbers equal. -/
theorem comparesAs_iff (left : evaluate data l = .ok (.ofWhole x))
    (right : evaluate data r = .ok (.ofWhole y)) :
    ComparesAs data l r x.val y.val ↔ (roundInt x.val = roundInt y.val → x.val = y.val) := by
  constructor
  · intro follows same
    obtain ⟨b, answered, truth⟩ := follows .equal
    obtain ⟨b', answered', rounded⟩ := evaluate_comparison .equal left right
    cases answered.symm.trans answered'
    exact truth.mp (rounded.mpr same)
  · intro apart op relation comparison
    obtain ⟨b, answered, rounded⟩ := evaluate_comparison comparison left right
    refine ⟨b, answered, rounded.trans ?_⟩
    -- Rounding keeps the order of the two, and what it makes equal is equal.
    have up := roundInt_mono (x := x.val) (y := y.val)
    have down := roundInt_mono (x := y.val) (y := x.val)
    have equal : roundInt x.val = roundInt y.val ↔ x.val = y.val := ⟨apart, congrArg roundInt⟩
    cases comparison <;> omega

theorem memberAs_iff (left : evaluate data l = .ok (.ofWhole x))
    (right : evaluate data items = .ok (.list (ys.map .ofWhole))) :
    MemberAs data l items x.val (ys.map Whole.val) ↔
      ((∃ y ∈ ys, roundInt y.val = roundInt x.val) → x.val ∈ ys.map Whole.val) := by
  obtain ⟨b, answered, rounded⟩ := evaluate_member left right
  constructor
  · rintro ⟨b', answered', truth⟩ close
    cases answered.symm.trans answered'
    exact truth.mp (rounded.mpr close)
  · intro apart
    refine ⟨b, answered, rounded.trans ⟨apart, fun inside => ?_⟩⟩
    obtain ⟨y, within, same⟩ := List.mem_map.mp inside
    exact ⟨y, within, congrArg roundInt same⟩

/-- Comparisons answer as the integers do just where the two are equal or rounding to 53 binary
digits tells them apart, and membership just where the number is in the list or no item rounds to
the same. So both are right for all numbers of at most 53 digits. -/
theorem comparisons_follow_iff (left : evaluate data l = .ok (.ofWhole x))
    (right : evaluate data r = .ok (.ofWhole y))
    (list : evaluate data items = .ok (.list (ys.map .ofWhole))) :
    (ComparesAs data l r x.val y.val ↔ (roundInt x.val = roundInt y.val → x.val = y.val)) ∧
      (MemberAs data l items x.val (ys.map Whole.val) ↔
        ((∃ y ∈ ys, roundInt y.val = roundInt x.val) → x.val ∈ ys.map Whole.val)) ∧
      (x.val.natAbs ≤ 2 ^ 53 →
        (y.val.natAbs ≤ 2 ^ 53 → ComparesAs data l r x.val y.val) ∧
          ((∀ y ∈ ys, y.val.natAbs ≤ 2 ^ 53) → MemberAs data l items x.val (ys.map Whole.val))) := by
  refine ⟨comparesAs_iff left right, memberAs_iff left list,
    fun shortX => ⟨fun shortY => ?_, fun short => ?_⟩⟩
  · refine (comparesAs_iff left right).mpr fun same => ?_
    rwa [roundInt_eq_self shortX, roundInt_eq_self shortY] at same
  · refine (memberAs_iff left list).mpr fun ⟨y, inside, same⟩ => ?_
    rw [roundInt_eq_self shortX, roundInt_eq_self (short y inside)] at same
    exact List.mem_map.mpr ⟨y, inside, same⟩

/-- The greatest number up to which doubles leave none out. -/
def lastExact : Whole := ⟨9007199254740992, by decide⟩

/-- The first number that is rounded, to the one before it. -/
def firstRounded : Whole := ⟨9007199254740993, by decide⟩

/-- The first number that is rounded is told apart from the second one before it, but taken for an
item of a list that has the one before it. -/
theorem firstRounded_follows_iff :
    ComparesAs .null (.literal (.ofWhole firstRounded))
        (.literal (.ofWhole ⟨9007199254740991, by decide⟩)) 9007199254740993 9007199254740991 ∧
      ¬MemberAs .null (.literal (.ofWhole firstRounded)) (.list [.literal (.ofWhole lastExact)])
        9007199254740993 [9007199254740992] := by
  have literal (w : Whole) : evaluate .null (.literal (.ofWhole w)) = .ok (.ofWhole w) := rfl
  have list : evaluate .null (.list [.literal (.ofWhole lastExact)]) =
      .ok (.list ([lastExact].map .ofWhole)) := rfl
  obtain ⟨compares, member, -⟩ := comparisons_follow_iff (literal firstRounded)
    (literal ⟨9007199254740991, by decide⟩) list
  refine ⟨compares.mpr (by decide), fun follows => ?_⟩
  exact absurd (member.mp follows ⟨lastExact, List.mem_singleton_self _, by decide⟩) (by decide)

theorem parse_adjacent :
    parse " 9007199254740993 = 9007199254740992 ".toList =
      .ok (.binary .equal (.literal (.ofWhole firstRounded)) (.literal (.ofWhole lastExact))) := by
  cbv

/-- Two numbers next to each other that are taken for equal. -/
theorem adjacent_equal :
    Delimited.percent.evaluate "<% 9007199254740993 = 9007199254740992 %>" (.object []) =
        .ok (.bool true) ∧
      ¬ComparesAs (.object []) (.literal (.ofWhole firstRounded)) (.literal (.ofWhole lastExact))
        9007199254740993 9007199254740992 := by
  have literal (w : Whole) : evaluate (.object []) (.literal (.ofWhole w)) = .ok (.ofWhole w) := rfl
  obtain ⟨b, answered, rounded⟩ :=
    evaluate_comparison .equal (literal firstRounded) (literal lastExact)
  rw [rounded.mpr (by decide)] at answered
  have cut : Delimited.percent.segments "<% 9007199254740993 = 9007199254740992 %>" =
      .ok ([⟨[], " 9007199254740993 = 9007199254740992 ".toList⟩], []) := by cbv
  constructor
  · exact Delimited.evaluate_alone cut (by cbv) parse_adjacent answered
  · intro follows
    obtain ⟨b', answered', truth⟩ := follows .equal
    cases answered.symm.trans answered'
    exact absurd (truth.mp rfl) (by decide)

end Integers

end Expression

end Workflow

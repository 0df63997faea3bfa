import Mathlib
import Workflow.Proofs.Decimal.Finite
import Workflow.Proofs.Expression.Comparison
import Workflow.Proofs.Expression.Parts

/-!
Arithmetic on integers. A result is the exact one as long as a signed word of 64 bits holds it, and
a double otherwise; it never wraps around. So an expression all parts of which are integers that
such words hold has its exact value.
-/

namespace Workflow

open Decimal

namespace Expression

variable {data : Value} {l r : Expression} {op : BinaryOp} {compute : Int → Int → Int} {x y : Whole}
  {n : Int}

/-- A signed word of 64 bits holds the integer. -/
def IsSigned (n : Int) : Prop :=
  -0x8000000000000000 ≤ n ∧ n < 0x8000000000000000

instance (n : Int) : Decidable (IsSigned n) :=
  inferInstanceAs (Decidable (_ ∧ _))

/-- The outcome is this integer if the condition holds, and a double if not. -/
def IntegerIf (condition : Prop) (n : Int) (outcome : Except Fault Value) : Prop :=
  (condition → ∃ w : Whole, w.val = n ∧ outcome = .ok (.ofWhole w)) ∧
    (¬condition → ∃ f : Float, outcome = .ok (.number (.float f)))

theorem signed?_eq_some (signed : IsSigned x.val) : x.signed? = some x.val :=
  if_pos signed.2

theorem signedValue?_of_signed (signed : IsSigned n) :
    ∃ w : Whole, w.val = n ∧ signedValue? n = some (.ofWhole w) :=
  ⟨_, rfl, dif_pos signed⟩

theorem signedValue?_of_not_signed (unsigned : ¬IsSigned n) : signedValue? n = none :=
  dif_neg unsigned

/-! ## Doubles -/

theorem ofFloat_eq {f : Float} (finite : f.isFinite = true) : Value.ofFloat f = .number (.float f) :=
  if_pos finite

/-- Whole numbers have moderate doubles. -/
theorem moderate_whole (x : Whole) : Moderate (nearestInt x.val).toModel.unpack :=
  moderate_nearestInt (natAbs_lt x)

theorem nearestInt_zero : nearestInt 0 = 0.0 :=
  rfl

theorem nearestInt_ne_zero (nonzero : y.val ≠ 0) : (nearestInt y.val == 0.0) = false := by
  have differ : roundInt y.val ≠ 0 := by
    obtain negative | positive := Int.lt_or_gt_of_ne nonzero
    · exact (roundInt_neg negative).ne
    · have := roundNat_pos (n := y.val.natAbs) (by omega)
      rw [roundInt_of_nonneg positive.le]
      omega
  rw [Bool.eq_false_iff, ← nearestInt_zero]
  exact fun same => differ ((beq_nearestInt_iff y ⟨0, by decide⟩).mp same)

/-! ## Operations -/

/-- The function of the integers that an operator computes. -/
inductive Computes : BinaryOp → (Int → Int → Int) → Prop where
  | add : Computes .add fun m n => m + n
  | subtract : Computes .subtract fun m n => m - n
  | multiply : Computes .multiply fun m n => m * n

/-- Doubles of whole numbers do not overflow when they are added, subtracted or multiplied. -/
theorem inexact_computes (computes : Computes op compute) (x y : Whole) :
    ∃ f, inexact op (nearestInt x.val) (nearestInt y.val) = .ok (.number (.float f)) := by
  have moderateX := moderate_whole x
  have moderateY := moderate_whole y
  cases computes with
  | add => exact ⟨_, congrArg Except.ok (ofFloat_eq (isFinite_add moderateX moderateY))⟩
  | subtract => exact ⟨_, congrArg Except.ok (ofFloat_eq (isFinite_sub moderateX moderateY))⟩
  | multiply => exact ⟨_, congrArg Except.ok (ofFloat_eq (isFinite_mul moderateX moderateY))⟩

theorem inexact_divide (x : Whole) (nonzero : y.val ≠ 0) :
    ∃ f, inexact .divide (nearestInt x.val) (nearestInt y.val) = .ok (.number (.float f)) := by
  have differ := nearestInt_ne_zero nonzero
  have finite := isFinite_div (moderate_whole x) (moderate_whole y) differ
  refine ⟨nearestInt x.val / nearestInt y.val, ?_⟩
  unfold inexact
  simp only [differ, ofFloat_eq finite, Bool.false_eq_true, if_false]

section Signed

variable (signedX : IsSigned x.val) (signedY : IsSigned y.val)
include signedX signedY

/-- A result that a signed word holds is exact. -/
theorem arithmetic_of_exact {value : Value} (defined : ¬(op = .divide ∧ y.val = 0))
    (exact_ : wholeResult? op x.val y.val = some value) :
    arithmetic op (.whole x) (.whole y) = .ok value := by
  have readX : (Number.whole x).signed? = some x.val := signed?_eq_some signedX
  have readY : (Number.whole y).signed? = some y.val := signed?_eq_some signedY
  unfold arithmetic
  simp only [readX, readY, defined, exact_, if_false]

/-- Any other result is that of doubles. -/
theorem arithmetic_of_inexact (defined : ¬(op = .divide ∧ y.val = 0))
    (inexact_ : wholeResult? op x.val y.val = none) :
    arithmetic op (.whole x) (.whole y) = inexact op (nearestInt x.val) (nearestInt y.val) := by
  have readX : (Number.whole x).signed? = some x.val := signed?_eq_some signedX
  have readY : (Number.whole y).signed? = some y.val := signed?_eq_some signedY
  unfold arithmetic
  simp only [readX, readY, defined, inexact_, if_false]
  rfl

/-- One operation: the integer if a signed word holds it, or else a double. -/
theorem evaluate_computes (computes : Computes op compute)
    (left : evaluate data l = .ok (.ofWhole x)) (right : evaluate data r = .ok (.ofWhole y)) :
    IntegerIf (IsSigned (compute x.val y.val)) (compute x.val y.val)
      (evaluate data (.binary op l r)) := by
  have strict : op ≠ .and ∧ op ≠ .or := by cases computes <;> decide
  have defined : ¬(op = .divide ∧ y.val = 0) := fun divides => by
    rw [divides.1] at computes
    cases computes
  have applied : applyBinary op (.ofWhole x) (.ofWhole y) = arithmetic op (.whole x) (.whole y) := by
    cases computes <;> rfl
  have result : wholeResult? op x.val y.val = signedValue? (compute x.val y.val) := by
    cases computes <;> rfl
  rw [evaluate_binary strict left right, applied]
  constructor
  · intro signed
    obtain ⟨w, value, found⟩ := signedValue?_of_signed signed
    exact ⟨w, value, congrArg orFault (arithmetic_of_exact signedX signedY defined (result.trans found))⟩
  · intro unsigned
    obtain ⟨f, computed⟩ := inexact_computes computes x y
    have none_ := result.trans (signedValue?_of_not_signed unsigned)
    exact ⟨f, congrArg orFault ((arithmetic_of_inexact signedX signedY defined none_).trans computed)⟩

theorem evaluate_divide_zero (zero : y.val = 0)
    (left : evaluate data l = .ok (.ofWhole x)) (right : evaluate data r = .ok (.ofWhole y)) :
    evaluate data (.binary .divide l r) = .error (.mismatch .divisionByZero) := by
  have readX : (Number.whole x).signed? = some x.val := signed?_eq_some signedX
  have readY : (Number.whole y).signed? = some y.val := signed?_eq_some signedY
  rw [evaluate_binary (by decide) left right]
  show orFault (arithmetic .divide (.whole x) (.whole y)) = _
  unfold arithmetic
  simp only [readX, readY, zero, true_and, if_true]
  rfl

/-- A quotient is exact where nothing is left over. -/
theorem evaluate_divide (nonzero : y.val ≠ 0)
    (left : evaluate data l = .ok (.ofWhole x)) (right : evaluate data r = .ok (.ofWhole y)) :
    IntegerIf (y.val ∣ x.val ∧ IsSigned (x.val / y.val)) (x.val / y.val)
      (evaluate data (.binary .divide l r)) := by
  have defined : ¬(BinaryOp.divide = .divide ∧ y.val = 0) := fun divides => nonzero divides.2
  have result : wholeResult? .divide x.val y.val =
      if y.val ∣ x.val then signedValue? (x.val / y.val) else none := by
    unfold wholeResult?
    simp only [← Int.dvd_iff_tmod_eq_zero]
    split
    next divides => rw [Int.tdiv_eq_ediv_of_dvd divides]
    next => rfl
  rw [evaluate_binary (by decide) left right]
  show IntegerIf _ _ (orFault (arithmetic .divide (.whole x) (.whole y)))
  constructor
  · intro ⟨divides, signed⟩
    obtain ⟨w, value, found⟩ := signedValue?_of_signed signed
    rw [if_pos divides] at result
    exact ⟨w, value, congrArg orFault (arithmetic_of_exact signedX signedY defined (result.trans found))⟩
  · intro apart
    obtain ⟨f, computed⟩ := inexact_divide x nonzero
    have none_ : wholeResult? .divide x.val y.val = none := by
      rw [result]
      split
      next divides => exact signedValue?_of_not_signed fun signed => apart ⟨divides, signed⟩
      next => rfl
    exact ⟨f, congrArg orFault ((arithmetic_of_inexact signedX signedY defined none_).trans computed)⟩

end Signed

theorem evaluate_negate (signed : IsSigned x.val) (operand : evaluate data l = .ok (.ofWhole x)) :
    IntegerIf (IsSigned (-x.val)) (-x.val) (evaluate data (.unary .negate l)) := by
  have read : (Number.whole x).signed? = some x.val := signed?_eq_some signed
  have negated : evaluate data (.unary .negate l) = .ok (negative (.whole x)) := by
    unfold evaluate
    rw [operand]
    rfl
  rw [negated]
  unfold negative
  rw [read, Option.bind_some]
  constructor
  · intro signed'
    obtain ⟨w, value, found⟩ := signedValue?_of_signed signed'
    rw [found]
    exact ⟨w, value, rfl⟩
  · intro unsigned
    rw [signedValue?_of_not_signed unsigned]
    exact ⟨_, congrArg Except.ok (ofFloat_eq (isFinite_neg (moderate_whole x)))⟩

/-! ## Whole expressions -/

/-- The ways to write a variable of the context. -/
inductive Names : Expression → String → Prop where
  | var (name : String) : Names (.var name) name
  | attr {base : Expression} (name : String) (context : base.isContext = true) :
    Names (.attr base name) name
  | ctx (name : String) : Names (.call "ctx" [.var name]) name
  | quoted (name : String) : Names (.call "ctx" [.literal (.string name)]) name

theorem Names.evaluate_eq {e : Expression} {name : String} (names : Names e name) :
    evaluate data e = lookup data name := by
  cases names with
  | attr name context =>
    unfold evaluate
    exact if_pos context
  | _ => rfl

/-- The integer that an expression of integers, variables of integers and operators stands for. -/
inductive StandsFor (data : Value) : Expression → Int → Prop where
  | literal (w : Whole) : StandsFor data (.literal (.ofWhole w)) w.val
  | var {e : Expression} {name : String} {w : Whole} (names : Names e name)
    (found : data.member? name = some (.ofWhole w)) : StandsFor data e w.val
  | negate {operand : Expression} {n : Int} (inner : StandsFor data operand n) :
    StandsFor data (.unary .negate operand) (-n)
  | binary {op : BinaryOp} {compute : Int → Int → Int} {left right : Expression} {m n : Int}
    (computes : Computes op compute) (first : StandsFor data left m) (second : StandsFor data right n) :
    StandsFor data (.binary op left right) (compute m n)

theorem Names.unique {e : Expression} {name name' : String} (names : Names e name)
    (names' : Names e name') : name = name' := by
  cases names <;> cases names' <;> rfl

theorem Computes.unique {compute' : Int → Int → Int} (computes : Computes op compute)
    (computes' : Computes op compute') : compute = compute' := by
  cases computes <;> cases computes' <;> rfl

/-- An expression stands for one integer at most. -/
theorem StandsFor.unique {e : Expression} {m : Int} (stands : StandsFor data e n)
    (stands' : StandsFor data e m) : n = m := by
  induction stands generalizing m with
  | literal w =>
    cases stands' with
    | literal => rfl
    | var names => cases names
  | var names found =>
    cases stands' with
    | var names' found' =>
      obtain rfl := names.unique names'
      cases found.symm.trans found'
      rfl
    | literal => cases names
    | negate => cases names
    | binary => cases names
  | negate inner ih =>
    cases stands' with
    | negate inner' => rw [ih inner']
    | var names => cases names
  | binary computes first second ihFirst ihSecond =>
    cases stands' with
    | binary computes' first' second' => rw [computes.unique computes', ihFirst first', ihSecond second']
    | var names => cases names

/-- Signed words hold what the expression stands for. -/
def IsSignedIn (data : Value) (e : Expression) : Prop :=
  ∀ n, StandsFor data e n → IsSigned n

/-- An expression has its exact value as soon as signed words hold those of all its parts. -/
theorem evaluate_of_standsFor {e : Expression} (stands : StandsFor data e n)
    (signed : e.Everywhere (IsSignedIn data)) :
    ∃ w : Whole, w.val = n ∧ evaluate data e = .ok (.ofWhole w) := by
  induction stands with
  | literal w => exact ⟨w, rfl, rfl⟩
  | @var e name w names found =>
    refine ⟨w, rfl, ?_⟩
    rw [names.evaluate_eq]
    unfold lookup
    rw [found]
  | @negate operand n inner ih =>
    obtain ⟨here, below⟩ := everywhere_unary.mp signed
    obtain ⟨w, rfl, evaluated⟩ := ih below
    exact (evaluate_negate (below.here _ inner) evaluated).1 (here _ (.negate inner))
  | @binary op compute left right m n computes first second ihFirst ihSecond =>
    obtain ⟨here, belowLeft, belowRight⟩ := everywhere_binary.mp signed
    obtain ⟨v, rfl, evaluatedLeft⟩ := ihFirst belowLeft
    obtain ⟨w, rfl, evaluatedRight⟩ := ihSecond belowRight
    exact (evaluate_computes (belowLeft.here _ first) (belowRight.here _ second) computes evaluatedLeft
      evaluatedRight).1 (here _ (.binary computes first second))

/-- Arithmetic on signed words gives the exact integer where a signed word holds it, and a double
where none does. Quotients are integers where nothing is left over, and there is none by zero.
Expressions are exact as soon as signed words hold the values of all their parts. -/
theorem integer_arithmetic (signedX : IsSigned x.val) (signedY : IsSigned y.val)
    (left : evaluate data l = .ok (.ofWhole x)) (right : evaluate data r = .ok (.ofWhole y)) :
    IntegerIf (IsSigned (x.val + y.val)) (x.val + y.val) (evaluate data (.binary .add l r)) ∧
      IntegerIf (IsSigned (x.val - y.val)) (x.val - y.val) (evaluate data (.binary .subtract l r)) ∧
      IntegerIf (IsSigned (x.val * y.val)) (x.val * y.val) (evaluate data (.binary .multiply l r)) ∧
      IntegerIf (IsSigned (-x.val)) (-x.val) (evaluate data (.unary .negate l)) ∧
      (y.val = 0 → evaluate data (.binary .divide l r) = .error (.mismatch .divisionByZero)) ∧
      (y.val ≠ 0 → IntegerIf (y.val ∣ x.val ∧ IsSigned (x.val / y.val)) (x.val / y.val)
        (evaluate data (.binary .divide l r))) ∧
      ∀ e n, StandsFor data e n → e.Everywhere (IsSignedIn data) →
        ∃ w : Whole, w.val = n ∧ evaluate data e = .ok (.ofWhole w) :=
  ⟨evaluate_computes signedX signedY .add left right,
    evaluate_computes signedX signedY .subtract left right,
    evaluate_computes signedX signedY .multiply left right,
    evaluate_negate signedX left,
    fun zero => evaluate_divide_zero signedX signedY zero left right,
    fun nonzero => evaluate_divide signedX signedY nonzero left right,
    fun _ _ => evaluate_of_standsFor⟩

/-- The least signed word, and minus one. -/
def leastWord : Value :=
  .object [("least", .ofWhole ⟨-0x8000000000000000, by decide⟩), ("unit", .ofWhole ⟨-1, by decide⟩)]

theorem IsSignedIn.of_standsFor {e : Expression} (stands : StandsFor data e n) (signed : IsSigned n) :
    IsSignedIn data e :=
  fun _ stands' => stands.unique stands' ▸ signed

/-- The least signed word has no negative and no quotient by minus one among the signed words. One
more than it has a negative, the greatest of them. -/
theorem leastWord_arithmetic :
    (∃ f, evaluate leastWord (.unary .negate (.var "least")) = .ok (.number (.float f))) ∧
      (∃ f, evaluate leastWord (.binary .divide (.var "least") (.var "unit")) =
        .ok (.number (.float f))) ∧
      ∃ w : Whole, w.val = 0x7fffffffffffffff ∧
        evaluate leastWord (.binary .multiply (.binary .subtract (.var "least") (.var "unit"))
          (.var "unit")) = .ok (.ofWhole w) := by
  have signed : IsSigned (-0x8000000000000000) := by decide
  have unit : IsSigned (-1) := by decide
  have left : evaluate leastWord (.var "least") = .ok (.ofWhole ⟨-0x8000000000000000, by decide⟩) := rfl
  have right : evaluate leastWord (.var "unit") = .ok (.ofWhole ⟨-1, by decide⟩) := rfl
  obtain ⟨-, -, -, negated, -, quotient, whole⟩ := integer_arithmetic signed unit left right
  refine ⟨negated.2 (by decide), (quotient (by decide)).2 (by decide), ?_⟩
  have first : StandsFor leastWord (.var "least") (-0x8000000000000000) :=
    .var (w := ⟨-0x8000000000000000, by decide⟩) (.var "least") rfl
  have second : StandsFor leastWord (.var "unit") (-1) := .var (w := ⟨-1, by decide⟩) (.var "unit") rfl
  have inner := StandsFor.binary .subtract first second
  have outer := StandsFor.binary .multiply inner second
  refine whole _ _ outer ?_
  simp only [everywhere_binary, everywhere_var]
  exact ⟨.of_standsFor outer (by decide), ⟨.of_standsFor inner (by decide), .of_standsFor first signed,
      .of_standsFor second unit⟩, .of_standsFor second unit⟩

end Expression

end Workflow

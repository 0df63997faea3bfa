import Workflow.Expression.Evaluation
import Workflow.Proofs.Expression.Variables
import Workflow.Proofs.Results

/-!
The value of an expression depends on the variables that are collected from it, and on no others.
-/

namespace Workflow.Expression

variable {data data' : Value} {e : Expression} {name x : String}

/-! ## What is read -/

/-- Every call of `ctx` with one argument names a variable: the argument is a name or a string. -/
def CallsNamed (e : Expression) : Prop :=
  e.Everywhere fun part => ∀ argument, part = call "ctx" [argument] →
    ∃ name, argument = var name ∨ argument = literal (.string name)

/-- The context as a whole stands only where a member of it is read. -/
def ReadsMembers (e : Expression) : Prop :=
  e.isContext = false ∧
    e.Everywhere fun part => ∀ child ∈ part.children, child.isContext = true →
      ∃ name, part = attr child name

theorem CallsNamed.namedArgument {argument : Expression} (named : (call "ctx" [argument]).CallsNamed) :
    ∃ name, namedArgument? [argument] = some name := by
  obtain ⟨name, rfl | rfl⟩ := named.here argument rfl
  · exact ⟨name, rfl⟩
  · exact ⟨name, rfl⟩

theorem evaluateCall_ctx {argument : Expression} (named : namedArgument? [argument] = some name) :
    evaluateCall data "ctx" [argument] = lookup data name := by
  unfold namedArgument? at named
  split at named
  next same =>
    cases same
    cases named
    rfl
  next same =>
    cases same
    cases named
    rfl
  next => cases named

/-- Only a look-up of what the context does not hold calls a name undefined. -/
theorem lookup_eq_undefined_iff :
    lookup data name = .error (.undefined x) ↔ data.member? name = none ∧ name = x := by
  unfold lookup
  split <;> simp [*]

theorem orFault_ne_undefined {α : Type} {r : Except Mismatch α} : orFault r ≠ .error (.undefined x) := by
  intro same
  cases r <;> cases same

theorem attributeOf_ne_undefined {value : Value} :
    attributeOf name value ≠ .error (.undefined x) := by
  cases value <;> simp [attributeOf]

theorem evaluateAll_eq_error {items : List Expression} {f : Fault}
    (fault : evaluateAll data items = .error f) : ∃ item ∈ items, evaluate data item = .error f := by
  induction items with
  | nil => simp [evaluateAll] at fault
  | cons item items ih =>
    unfold evaluateAll at fault
    split at fault
    next f' failed =>
      cases fault
      exact ⟨item, List.mem_cons_self, failed⟩
    next =>
      obtain ⟨other, inside, failed⟩ := ih (map_eq_error_iff.mp fault)
      exact ⟨other, List.mem_cons_of_mem item inside, failed⟩

/-- A call that misses a variable has one argument, which misses it unless the function is `ctx`. -/
theorem evaluateCall_eq_undefined {function : String} {arguments : List Expression}
    (fault : evaluateCall data function arguments = .error (.undefined x)) :
    ∃ argument, arguments = [argument] ∧ (function = "ctx" ∨
      readsContext function = true ∧ function ≠ "ctx" ∧
        evaluate data argument = .error (.undefined x)) := by
  match arguments with
  | [] =>
    simp only [evaluateCall] at fault
    split at fault
    · cases fault
    · split at fault <;> cases fault
  | _ :: _ :: _ =>
    simp only [evaluateCall] at fault
    split at fault <;> cases fault
  | [argument] =>
    refine ⟨argument, rfl, ?_⟩
    by_cases whole : function = "ctx"
    · exact .inl whole
    simp only [evaluateCall, whole, if_false] at fault
    split at fault
    next len =>
      split at fault
      next failed =>
        cases fault
        exact .inr ⟨by simp [readsContext, len], whole, failed⟩
      next => exact absurd fault orFault_ne_undefined
    next =>
      split at fault
      next str => exact .inr ⟨by simp [readsContext, str], whole, map_eq_error_iff.mp fault⟩
      next => cases fault

/-- A variable that evaluation misses is one of those that are collected. -/
theorem mem_variableNames_of_undefined (named : e.CallsNamed)
    (fault : evaluate data e = .error (.undefined x)) : x ∈ e.variableNames := by
  induction e with
  | literal value => simp [evaluate] at fault
  | root => simp [evaluate] at fault
  | var name =>
    obtain ⟨_, rfl⟩ := lookup_eq_undefined_iff.mp fault
    simp
  | list items ih =>
    obtain ⟨item, inside, failed⟩ := evaluateAll_eq_error (map_eq_error_iff.mp fault)
    exact mem_variableNames_list.mpr ⟨item, inside, ih item inside (named.child inside) failed⟩
  | attr base name ih =>
    rw [variableNames_attr]
    unfold evaluate at fault
    split at fault
    next whole =>
      obtain ⟨_, rfl⟩ := lookup_eq_undefined_iff.mp fault
      simp [whole]
    next whole =>
      rw [if_neg whole]
      split at fault
      next failed =>
        cases fault
        exact ih (named.child (by simp [children])) failed
      next => exact absurd fault attributeOf_ne_undefined
  | index base position ih ih' =>
    rw [mem_variableNames_index]
    unfold evaluate at fault
    split at fault
    next failed =>
      cases fault
      exact .inl (ih (named.child (by simp [children])) failed)
    next =>
      split at fault
      next failed =>
        cases fault
        exact .inr (ih' (named.child (by simp [children])) failed)
      next => exact absurd fault orFault_ne_undefined
  | call function arguments ih =>
    rw [evaluate] at fault
    obtain ⟨argument, rfl, rfl | ⟨reads, other, failed⟩⟩ := evaluateCall_eq_undefined fault
    · obtain ⟨name, named⟩ := named.namedArgument
      rw [evaluateCall_ctx named] at fault
      obtain ⟨_, rfl⟩ := lookup_eq_undefined_iff.mp fault
      simp [variableNames_ctx named]
    · have inside : argument ∈ [argument] := List.mem_singleton_self argument
      exact (mem_variableNames_call reads other).mpr
        ⟨argument, inside, ih argument inside (named.child inside) failed⟩
  | unary op operand ih =>
    rw [variableNames_unary]
    have named' := named.child (by simp [children] : operand ∈ (unary op operand).children)
    cases op with
    | not => exact ih named' (map_eq_error_iff.mp fault)
    | negate =>
      unfold evaluate at fault
      split at fault
      next failed =>
        cases fault
        exact ih named' failed
      next => cases fault
      next => cases fault
  | binary op left right ih ih' =>
    rw [mem_variableNames_binary]
    unfold evaluate at fault
    split at fault
    next failed =>
      cases fault
      exact .inl (ih (named.child (by simp [children])) failed)
    next =>
      split at fault
      next => cases fault
      split at fault
      next => cases fault
      split at fault
      next failed =>
        cases fault
        exact .inr (ih' (named.child (by simp [children])) failed)
      next => exact absurd fault orFault_ne_undefined

/-! ## What the value depends on -/

/-- What is below an expression reads members only, unless it is the base of one. -/
theorem ReadsMembers.child {child : Expression} (members : e.ReadsMembers) (inside : child ∈ e.children)
    (apart : ∀ name, e ≠ attr child name) : child.ReadsMembers := by
  refine ⟨?_, members.2.child inside⟩
  cases whole : child.isContext with
  | false => rfl
  | true =>
    obtain ⟨name, same⟩ := members.2.here child inside whole
    exact absurd same (apart name)

theorem lookup_congr (agree : data.member? name = data'.member? name) :
    lookup data name = lookup data' name := by
  unfold lookup
  rw [agree]

theorem evaluateAll_congr {items : List Expression}
    (each : ∀ item ∈ items, evaluate data item = evaluate data' item) :
    evaluateAll data items = evaluateAll data' items := by
  induction items with
  | nil => rfl
  | cons item items ih =>
    rw [List.forall_mem_cons] at each
    unfold evaluateAll
    rw [each.1, ih each.2]

/-- A call of a function other than `ctx` looks at the context through its argument only. -/
theorem evaluateCall_congr {function : String} {arguments : List Expression} (other : function ≠ "ctx")
    (each : ∀ argument ∈ arguments, readsContext function = true →
      evaluate data argument = evaluate data' argument) :
    evaluateCall data function arguments = evaluateCall data' function arguments := by
  match arguments with
  | [] => simp [evaluateCall, other]
  | _ :: _ :: _ => simp [evaluateCall]
  | [argument] =>
    have same := each argument (List.mem_singleton_self argument)
    simp only [evaluateCall, other, if_false]
    split
    next len => rw [same (by simp [readsContext, len])]
    next =>
      split
      next str => rw [same (by simp [readsContext, str])]
      next => rfl

/-- Contexts that agree on the variables collected from an expression give it the same value, or the same
fault. -/
theorem evaluate_congr (named : e.CallsNamed) (members : e.ReadsMembers)
    (agree : ∀ x ∈ e.variableNames, data.member? x = data'.member? x) :
    evaluate data e = evaluate data' e := by
  induction e with
  | literal value => rfl
  | root => cases members.1
  | var name => exact lookup_congr (agree name (by simp))
  | list items ih =>
    have each : ∀ item ∈ items, evaluate data item = evaluate data' item := by
      intro item inside
      apply ih item inside (named.child inside) (members.child inside (by simp))
      intro x mentioned
      exact agree x (mem_variableNames_list.mpr ⟨item, inside, mentioned⟩)
    unfold evaluate
    rw [evaluateAll_congr each]
  | attr base name ih =>
    unfold evaluate
    rw [variableNames_attr] at agree
    -- Here the context may stand as a whole: then only the member is looked up.
    split
    next whole => exact lookup_congr (agree name (by simp [whole]))
    next whole =>
      rw [if_neg whole] at agree
      have inside : base ∈ (attr base name).children := List.mem_singleton_self base
      have members' : base.ReadsMembers := ⟨by simpa using whole, members.2.child inside⟩
      rw [ih (named.child inside) members' agree]
  | index base position ih ih' =>
    simp only [mem_variableNames_index] at agree
    have first : evaluate data base = evaluate data' base := by
      have inside : base ∈ (index base position).children := by simp [children]
      exact ih (named.child inside) (members.child inside (by simp)) fun x mentioned =>
        agree x (.inl mentioned)
    have second : evaluate data position = evaluate data' position := by
      have inside : position ∈ (index base position).children := by simp [children]
      exact ih' (named.child inside) (members.child inside (by simp)) fun x mentioned =>
        agree x (.inr mentioned)
    unfold evaluate
    rw [first, second]
  | call function arguments ih =>
    simp only [evaluate]
    by_cases whole : function = "ctx"
    · subst whole
      cases arguments with
      | nil => cases members.1
      | cons argument rest =>
        cases rest with
        | cons => simp [evaluateCall]
        | nil =>
          obtain ⟨name, named⟩ := named.namedArgument
          rw [evaluateCall_ctx named, evaluateCall_ctx named]
          exact lookup_congr (agree name (by simp [variableNames_ctx named]))
    · apply evaluateCall_congr whole
      intro argument inside reads
      apply ih argument inside (named.child inside) (members.child inside (by simp))
      intro x mentioned
      exact agree x ((mem_variableNames_call reads whole).mpr ⟨argument, inside, mentioned⟩)
  | unary op operand ih =>
    rw [variableNames_unary] at agree
    have inside : operand ∈ (unary op operand).children := List.mem_singleton_self operand
    have same := ih (named.child inside) (members.child inside (by simp)) agree
    cases op with
    | not => simp only [evaluate, same]
    | negate => simp only [evaluate, same]
  | binary op left right ih ih' =>
    simp only [mem_variableNames_binary] at agree
    have first : evaluate data left = evaluate data' left := by
      have inside : left ∈ (binary op left right).children := by simp [children]
      exact ih (named.child inside) (members.child inside (by simp)) fun x mentioned =>
        agree x (.inl mentioned)
    have second : evaluate data right = evaluate data' right := by
      have inside : right ∈ (binary op left right).children := by simp [children]
      exact ih' (named.child inside) (members.child inside (by simp)) fun x mentioned =>
        agree x (.inr mentioned)
    unfold evaluate
    rw [first, second]

end Workflow.Expression

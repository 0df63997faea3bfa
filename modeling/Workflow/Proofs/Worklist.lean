import Mathlib.Logic.Relation
import Workflow.Worklist

/-!
What working off comes to: a run of steps to a state in which nothing is left to do, or to a step that
fails. A measure that every step makes smaller says how many steps are enough.
-/

namespace Workflow

variable {σ ε : Type} {step : σ → Except ε (Option σ)}

/-- A step that leaves something to do. -/
def Takes (step : σ → Except ε (Option σ)) (before after : σ) : Prop :=
  step before = .ok (some after)

abbrev Runs (step : σ → Except ε (Option σ)) : σ → σ → Prop :=
  Relation.ReflTransGen (Takes step)

theorem workOff_ok {n : Nat} {s final : σ} (worked : workOff step n s = some (.ok final)) :
    Runs step s final ∧ step final = .ok none := by
  induction n generalizing s with
  | zero => simp [workOff] at worked
  | succ n ih =>
    unfold workOff at worked
    cases taken : step s with
    | error e => simp [taken] at worked
    | ok next =>
      cases next with
      | none =>
        simp only [taken, Option.some.injEq, Except.ok.injEq] at worked
        subst worked
        exact ⟨.refl, taken⟩
      | some t =>
        simp only [taken] at worked
        obtain ⟨run, done⟩ := ih worked
        exact ⟨.head taken run, done⟩

theorem workOff_error {n : Nat} {s : σ} {e : ε} (failed : workOff step n s = some (.error e)) :
    ∃ t, Runs step s t ∧ step t = .error e := by
  induction n generalizing s with
  | zero => simp [workOff] at failed
  | succ n ih =>
    unfold workOff at failed
    cases taken : step s with
    | error e' =>
      simp only [taken, Option.some.injEq, Except.error.injEq] at failed
      subst failed
      exact ⟨s, .refl, taken⟩
    | ok next =>
      cases next with
      | none => simp [taken] at failed
      | some t =>
        simp only [taken] at failed
        obtain ⟨u, run, last⟩ := ih failed
        exact ⟨u, .head taken run, last⟩

/-- A walk that comes to an end has nothing left to do, or a step of it fails. -/
theorem workOff_cases {n : Nat} {s : σ} (ends : (workOff step n s).isSome) :
    (∃ t, workOff step n s = some (.ok t) ∧ Runs step s t ∧ step t = .ok none) ∨
      ∃ e t, workOff step n s = some (.error e) ∧ Runs step s t ∧ step t = .error e := by
  obtain ⟨result, worked⟩ := Option.isSome_iff_exists.mp ends
  cases result with
  | ok t => exact .inl ⟨t, worked, workOff_ok worked⟩
  | error e =>
    obtain ⟨t, failed⟩ := workOff_error worked
    exact .inr ⟨e, t, worked, failed⟩

/-- What every step preserves holds after any run. -/
theorem Runs.preserves {holds : σ → Prop} {s t : σ}
    (preserved : ∀ a b, holds a → Takes step a b → holds b) (run : Runs step s t)
    (start : holds s) : holds t := by
  induction run with
  | refl => exact start
  | tail _ taken ih => exact preserved _ _ ih taken

/-- Steps are functions of the state, so of two states of a run one leads to the other. -/
theorem Runs.total {s a b : σ} (toA : Runs step s a) (toB : Runs step s b) :
    Runs step a b ∨ Runs step b a := by
  refine Relation.ReflTransGen.total_of_right_unique ?_ toA toB
  intro x y z first second
  unfold Takes at first second
  rw [first] at second
  exact Option.some.inj (Except.ok.inj second)

/-- Every state of a run leads to the one in which nothing is left to do. -/
theorem Runs.to_end {s a final : σ} (run : Runs step s a) (toEnd : Runs step s final)
    (done : step final = .ok none) : Runs step a final := by
  rcases Runs.total run toEnd with later | beyond
  · exact later
  · cases beyond.cases_head with
    | inl same => exact same ▸ .refl
    | inr next =>
      obtain ⟨t, taken, _⟩ := next
      unfold Takes at taken
      rw [done] at taken
      cases taken

/-- Runs come to an end in one state. -/
theorem Runs.end_unique {s a b : σ} (toA : Runs step s a) (doneA : step a = .ok none)
    (toB : Runs step s b) (doneB : step b = .ok none) : a = b := by
  cases (toA.to_end toB doneB).cases_head with
  | inl same => exact same
  | inr next =>
    obtain ⟨t, taken, _⟩ := next
    unfold Takes at taken
    rw [doneA] at taken
    cases taken

/-- Do the states of a walk that ends within so many steps all pass a test? -/
def passAlong (step : σ → Except ε (Option σ)) (test : σ → Bool) : Nat → σ → Bool
  | 0, _ => false
  | n + 1, s => test s &&
    match step s with
    | .ok (some t) => passAlong step test n t
    | _ => true

theorem Runs.passes {test : σ → Bool} {s t : σ} (run : Runs step s t) {n : Nat}
    (along : passAlong step test n s = true) : test t = true := by
  induction run using Relation.ReflTransGen.head_induction_on generalizing n with
  | refl =>
    cases n with
    | zero => cases along
    | succ n =>
      rw [passAlong, Bool.and_eq_true] at along
      exact along.1
  | head taken _ ih =>
    cases n with
    | zero => cases along
    | succ n =>
      unfold Takes at taken
      rw [passAlong, Bool.and_eq_true, taken] at along
      exact ih along.2

/-- Steps that make a measure smaller come to an end before it is used up. -/
theorem workOff_isSome {holds : σ → Prop} (measure : σ → Nat)
    (preserved : ∀ a b, holds a → Takes step a b → holds b)
    (smaller : ∀ a b, holds a → Takes step a b → measure b < measure a)
    (n : Nat) (s : σ) (start : holds s) (enough : measure s < n) :
    (workOff step n s).isSome := by
  induction n generalizing s with
  | zero => omega
  | succ n ih =>
    unfold workOff
    cases taken : step s with
    | error e => rfl
    | ok next =>
      cases next with
      | none => rfl
      | some t =>
        have less := smaller s t start taken
        exact ih t (preserved s t start taken) (by omega)

theorem workOff_of_le {m n : Nat} {s : σ} {result : Except ε σ}
    (worked : workOff step m s = some result) (more : m ≤ n) : workOff step n s = some result := by
  induction m generalizing n s with
  | zero => simp [workOff] at worked
  | succ m ih =>
    cases n with
    | zero => omega
    | succ n =>
      unfold workOff at worked ⊢
      cases taken : step s with
      | error e => simpa [taken] using worked
      | ok next =>
        cases next with
        | none => simpa [taken] using worked
        | some t =>
          simp only [taken] at worked ⊢
          exact ih worked (Nat.le_of_succ_le_succ more)

/-- Steps that do what others do, unless they give up, come to the same end, unless they give up. -/
theorem workOff_of_agree {step' : σ → Except ε (Option σ)} {givesUp : ε → Prop}
    (agree : ∀ s, step' s = step s ∨ ∃ e, givesUp e ∧ step s = .error e) {n : Nat} {s : σ}
    {result : Except ε σ} (worked : workOff step n s = some result) :
    workOff step' n s = some result ∨ ∃ e, givesUp e ∧ result = .error e := by
  induction n generalizing s with
  | zero => simp [workOff] at worked
  | succ n ih =>
    unfold workOff at worked ⊢
    rcases agree s with same | ⟨e, up, failed⟩
    · rw [same]
      cases taken : step s with
      | error e => exact .inl (by simpa [taken] using worked)
      | ok next =>
        cases next with
        | none => exact .inl (by simpa [taken] using worked)
        | some t =>
          simp only [taken] at worked ⊢
          exact ih worked
    · rw [failed] at worked
      exact .inr ⟨e, up, (Option.some.inj worked).symm⟩

/-- Walks that come to an end within different numbers of steps come to the same end. -/
theorem workOff_eq_of_isSome {m n : Nat} {s : σ} (ends : (workOff step m s).isSome)
    (ends' : (workOff step n s).isSome) : workOff step m s = workOff step n s := by
  obtain ⟨result, worked⟩ := Option.isSome_iff_exists.mp ends
  obtain ⟨result', worked'⟩ := Option.isSome_iff_exists.mp ends'
  rcases Nat.le_total m n with more | more
  · rw [worked, workOff_of_le worked more]
  · rw [worked', workOff_of_le worked' more]

/-- A run that comes to an end does so after any number of steps that is enough. -/
theorem exists_workOff {β : Type} {m n : Nat} {s : σ} {f : σ → β} {b : β}
    (ends : (workOff step m s).isSome)
    (worked : (workOff step n s).map (fun r => r.map f) = some (.ok b)) :
    ∃ t, workOff step m s = some (.ok t) ∧ f t = b := by
  obtain ⟨result, worked', same⟩ := Option.map_eq_some_iff.mp worked
  rw [workOff_eq_of_isSome ends (Option.isSome_of_eq_some worked'), worked']
  cases result with
  | error e => cases same
  | ok t => exact ⟨t, rfl, Except.ok.inj same⟩

end Workflow

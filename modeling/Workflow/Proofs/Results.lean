/-!
Results of what may fail, and when a function applied to them fails.
-/

namespace Workflow

variable {ε α β : Type}

theorem map_eq_error_iff {f : α → β} {r : Except ε α} {e : ε} : r.map f = .error e ↔ r = .error e := by
  cases r <;> simp [Except.map]

theorem map_eq_ok_iff {f : α → β} {r : Except ε α} {b : β} :
    r.map f = .ok b ↔ ∃ a, r = .ok a ∧ f a = b := by
  cases r <;> simp [Except.map]

theorem map_some_eq_ok_iff {r : Except ε α} {a : α} : r.map some = .ok (some a) ↔ r = .ok a := by
  cases r <;> simp [Except.map]

theorem map_some_ne_ok_none {r : Except ε α} : r.map some ≠ .ok none := by
  cases r <;> simp [Except.map]

end Workflow

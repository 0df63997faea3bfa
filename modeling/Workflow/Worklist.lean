/-!
Working off what is to be done. A step does one thing, which may bring new things to do; of a
finite graph, the nodes that can be reached are worked off in this way.
-/

namespace Workflow

section Steps

variable {σ ε : Type}

/-- Takes steps until one fails or finds nothing to do, but no more than so many; answers with
nothing if there was still something to do. -/
def workOff (step : σ → Except ε (Option σ)) : Nat → σ → Option (Except ε σ)
  | 0, _ => none
  | n + 1, s =>
    match step s with
    | .error e => some (.error e)
    | .ok none => some (.ok s)
    | .ok (some s) => workOff step n s

end Steps

section Search

variable {α : Type} [DecidableEq α]

/-- The nodes of `remaining` that can be reached from the pending ones along `next` without leaving
`remaining`. A node that is reached is taken out, so the search ends. -/
def reach (next : α → List α) (remaining : List α) : List α → List α
  | [] => []
  | x :: pending =>
    if x ∈ remaining then x :: reach next (remaining.erase x) (next x ++ pending)
    else reach next remaining pending
termination_by pending => (remaining.length, pending.length)
decreasing_by
  · rename_i h
    rw [Prod.lex_def]
    have := List.length_erase_of_mem h
    have := List.length_pos_of_mem h
    left
    simp only
    omega
  · rw [Prod.lex_def]
    right
    simp

end Search

end Workflow

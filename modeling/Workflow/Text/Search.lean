/-!
Finding one text inside another.
-/

namespace Workflow.Text

/-- Splits a text around the first occurrence of a pattern: what comes before it and what comes
behind it. The empty pattern occurs at the start of every text. -/
def splitAtFirst (pattern : List Char) : List Char → Option (List Char × List Char)
  | [] => if pattern.isEmpty then some ([], []) else none
  | c :: cs =>
    if pattern.isPrefixOf (c :: cs) then some ([], (c :: cs).drop pattern.length)
    else (splitAtFirst pattern cs).map fun (before, behind) => (c :: before, behind)

def occursIn (pattern cs : List Char) : Bool :=
  (splitAtFirst pattern cs).isSome

theorem splitAtFirst_length_le {pattern : List Char} {cs before behind : List Char}
    (h : splitAtFirst pattern cs = some (before, behind)) :
    behind.length + pattern.length ≤ cs.length := by
  induction cs generalizing before with
  | nil =>
    cases pattern with
    | nil => simp [splitAtFirst] at h; simp [h]
    | cons p ps => simp [splitAtFirst] at h
  | cons c cs ih =>
    rw [splitAtFirst] at h
    split at h
    · rename_i hp
      simp only [Option.some.injEq, Prod.mk.injEq] at h
      have hle := (List.isPrefixOf_iff_prefix.1 hp).length_le
      rw [← h.2, List.length_drop]
      omega
    · obtain ⟨⟨b, r⟩, hs, he⟩ := Option.map_eq_some_iff.1 h
      simp only [Prod.mk.injEq] at he
      have := ih (he.2 ▸ hs)
      simp only [List.length_cons]
      omega

end Workflow.Text

import Mathlib.Data.List.Nodup
import Mathlib.Data.List.ProdSigma
import Mathlib.Data.List.Perm.Subperm
import Mathlib.Logic.Relation
import Mathlib.Tactic.Ring

/-!
Arrivals at the tasks of a network behind the forks on the way. Plans and their graphs are two
presentations of one network; the search for ambiguous joins and both compositions follow its
arrivals.
-/

namespace Workflow

/-- The tasks that work starts at, the links between tasks, and which tasks are forks. -/
structure Network where
  starts : String → Prop
  leads : String → String → Prop
  forks : String → Bool

namespace Network

variable {w : Network} {t : String} {σ : List String}

/-- The forks on the ways out of a task, for an arrival behind these. -/
def behind (w : Network) (t : String) (σ : List String) : List String :=
  if w.forks t then σ ++ [t] else σ

theorem behind_of_fork (fork : w.forks t = true) : w.behind t σ = σ ++ [t] :=
  if_pos fork

theorem behind_of_not_fork (plain : w.forks t = false) : w.behind t σ = σ := by
  unfold behind
  rw [plain]
  exact if_neg Bool.false_ne_true

/-- The arrivals: at the starts behind no fork, and along the links. -/
inductive Arrives (w : Network) : String → List String → Prop where
  | start {t : String} (first : w.starts t) : Arrives w t []
  | follow {t u : String} {σ : List String} (before : Arrives w t σ) (link : w.leads t u) :
      Arrives w u (w.behind t σ)

/-- No fork leads back to itself. -/
def Acyclic (w : Network) : Prop :=
  ∀ t, w.forks t = true → ¬Relation.TransGen w.leads t t

/-- Behind each fork of an arrival there is a way to the task. -/
theorem Arrives.transGen (arrives : w.Arrives t σ) {f : String} (inside : f ∈ σ) :
    w.forks f = true ∧ Relation.TransGen w.leads f t := by
  induction arrives with
  | start => cases inside
  | @follow t u σ _ link ih =>
    unfold behind at inside
    split at inside
    next fork =>
      rcases List.mem_append.mp inside with before | last
      · exact ⟨(ih before).1, (ih before).2.tail link⟩
      · rw [List.mem_singleton.mp last]
        exact ⟨fork, .single link⟩
    next =>
      exact ⟨(ih inside).1, (ih inside).2.tail link⟩

/-- The forks on the way are different tasks. -/
theorem Arrives.nodup (acyclic : w.Acyclic) (arrives : w.Arrives t σ) : σ.Nodup := by
  induction arrives with
  | start => exact List.nodup_nil
  | @follow t u σ before link ih =>
    unfold behind
    split
    next fork =>
      have new : t ∉ σ := fun inside => acyclic t fork (before.transGen inside).2
      exact List.nodup_append.mpr ⟨ih, List.pairwise_singleton _ t, fun a inside b last same =>
        new (List.mem_singleton.mp last ▸ same ▸ inside)⟩
    next => exact ih

/-- Arrivals depend on what the network says of the tasks that are arrived at only. -/
theorem Arrives.mono {w' : Network} (starts : ∀ t, w.starts t → w'.starts t)
    (leads : ∀ t u, w.leads t u → w'.leads t u)
    (forks : ∀ t σ, w.Arrives t σ → w.forks t = w'.forks t) (arrives : w.Arrives t σ) :
    w'.Arrives t σ := by
  induction arrives with
  | start first => exact .start (starts _ first)
  | @follow t u σ before link ih =>
    have next := ih.follow (leads _ _ link)
    unfold behind at next ⊢
    rw [forks t σ before]
    exact next

/-- The links lead to known tasks only. -/
def Among (w : Network) (names : List String) : Prop :=
  (∀ t, w.starts t → t ∈ names) ∧ ∀ t u, w.leads t u → u ∈ names

theorem Arrives.mem (among : w.Among names) (arrives : w.Arrives t σ) : t ∈ names := by
  cases arrives with
  | start first => exact among.1 t first
  | follow _ link => exact among.2 _ t link

/-- Arrivals are behind known tasks only. -/
theorem Arrives.subset (among : w.Among names) (arrives : w.Arrives t σ) : σ ⊆ names := by
  induction arrives with
  | start => exact List.nil_subset names
  | @follow t u σ before link ih =>
    unfold behind
    split
    next =>
      have last : [t] ⊆ names := List.cons_subset.mpr ⟨before.mem among, List.nil_subset names⟩
      exact List.append_subset.mpr ⟨ih, last⟩
    next => exact ih

end Network

/-- The lists of names that are no longer than `n`. -/
def listings (names : List String) : Nat → List (List String)
  | 0 => [[]]
  | n + 1 => [] :: names.flatMap fun a => (listings names n).map (a :: ·)

/-- The lists of known names up to a length are listed. -/
theorem mem_listings {names σ : List String} {n : Nat} (known : σ ⊆ names) (short : σ.length ≤ n) :
    σ ∈ listings names n := by
  induction n generalizing σ with
  | zero =>
    rw [List.length_eq_zero_iff.mp (Nat.le_zero.mp short)]
    exact List.mem_singleton.mpr rfl
  | succ n ih =>
    cases σ with
    | nil => exact List.mem_cons_self
    | cons a σ =>
      obtain ⟨first, others⟩ := List.cons_subset.mp known
      have rest := ih others (by simpa using short)
      exact List.mem_cons_of_mem _ (List.mem_flatMap.mpr
        ⟨a, first, List.mem_map.mpr ⟨σ, rest, rfl⟩⟩)

theorem length_listings_le (names : List String) (n : Nat) :
    (listings names n).length ≤ (names.length + 1) ^ n := by
  induction n with
  | zero => simp [listings]
  | succ n ih =>
    have count : (listings names (n + 1)).length =
        1 + names.length * (listings names n).length := by
      simp [listings, Nat.add_comm, List.length_flatMap, List.map_const']
    have least : 1 ≤ (names.length + 1) ^ n := Nat.one_le_pow _ _ (by omega)
    calc (listings names (n + 1)).length
        = 1 + names.length * (listings names n).length := count
      _ ≤ (names.length + 1) ^ n + names.length * (names.length + 1) ^ n :=
          Nat.add_le_add least (Nat.mul_le_mul_left _ ih)
      _ = (names.length + 1) ^ (n + 1) := by ring

/-- Different arrivals among these tasks are fewer than `(names + 1) ^ (names + 2)`. -/
theorem Network.arrivals_length_le {w : Network} {names : List String} (acyclic : w.Acyclic)
    (among : w.Among names) {found : List (String × List String)} (unique : found.Nodup)
    (arrive : ∀ a ∈ found, w.Arrives a.1 a.2) :
    found.length ≤ (names.length + 1) ^ (names.length + 2) := by
  have inside : found ⊆ names ×ˢ listings names names.length := by
    intro a known
    have arrives := arrive a known
    have known' := arrives.subset among
    have short : a.2.length ≤ names.length := ((arrives.nodup acyclic).subperm known').length_le
    exact List.mem_product.mpr ⟨arrives.mem among, mem_listings known' short⟩
  calc found.length
      ≤ (names ×ˢ listings names names.length).length := (unique.subperm inside).length_le
    _ = names.length * (listings names names.length).length := List.length_product _ _
    _ ≤ (names.length + 1) * (names.length + 1) ^ names.length :=
        Nat.mul_le_mul (Nat.le_succ _) (length_listings_le _ _)
    _ = (names.length + 1) ^ (names.length + 1) := by ring
    _ ≤ (names.length + 1) ^ (names.length + 2) := Nat.pow_le_pow_right (by omega) (by omega)

end Workflow

import Mathlib.Data.String.Basic
import Workflow.Proofs.Inspection.Vocabulary.Visits

/-!
What it changes that more names are known: the problems of the variables with these names are not
found, and the others are found in the same order.
-/

namespace Workflow.Inspection.Vocabulary

variable {r : Registry} {p : Plan} {X a a' b b' known known' : List String} {n t : String}
  {s : Site} {v : VariableRef} {sites : List Site} {bs : List Binding}

/-- The second names are the first ones and those of `X`. -/
def Widened (X a b : List String) : Prop :=
  ∀ n, n ∈ b ↔ n ∈ a ∨ n ∈ X

theorem Widened.subset (wide : Widened X a b) : a ⊆ b :=
  fun n inside => (wide n).mpr (.inl inside)

theorem Widened.subset_append (wide : Widened X a b) : b ⊆ a ++ X := by
  intro n inside
  rw [List.mem_append]
  exact (wide n).mp inside

/-- Apart from names of `X`, inclusions can be composed. -/
theorem subset_append_trans {c : List String} (first : a ⊆ b ++ X) (second : b ⊆ c ++ X) :
    a ⊆ c ++ X :=
  List.Subset.trans first (List.append_subset.mpr ⟨second, List.subset_append_right c X⟩)

theorem widened_extend (first : Widened X a a') (second : Widened X b b') :
    Widened X (extend a b) (extend a' b') := by
  intro n
  simp only [mem_extend, first n, second n]
  tauto

/-- Names that come to both do not change what is between them. -/
theorem widened_extend_same (wide : Widened X a a') (names : List String) :
    Widened X (extend a names) (extend a' names) := by
  intro n
  simp only [mem_extend, wide n]
  tauto

/-- Names that are known to the second already do not change what is between them. -/
theorem widened_extend_left (wide : Widened X a a') (old : b ⊆ a ++ X) :
    Widened X (extend a b) a' := by
  intro n
  have old := @old n
  rw [List.mem_append] at old
  simp only [mem_extend, wide n]
  tauto

theorem widened_getD {o o' : Option (List String)} (same : Option.Rel (Widened X) o o')
    (wide : Widened X b b') : Widened X (o.getD b) (o'.getD b') := by
  cases same with
  | some held => exact held
  | none => exact wide

/-- Names are added to what was there before, if anything. -/
theorem widened_extend_getD {o o' : Option (List String)} (same : Option.Rel (Widened X) o o')
    (wide : Widened X b b') : Widened X (extend (o.getD []) b) (extend (o'.getD []) b') := by
  cases same with
  | some held => exact widened_extend held wide
  | none =>
    intro n
    simp only [Option.getD_none, mem_extend, List.not_mem_nil, false_or]
    exact wide n

/-- Is it the problem of a variable with one of these names? -/
def about (X : List String) (d : Diagnostic) : Bool :=
  X.any fun n => d.message == "Variable \"" ++ n ++ "\" is referenced before assignment."

theorem about_problem_iff : about X (problem s v) = true ↔ v.name ∈ X := by
  unfold about problem
  simp

/-- With more known names, the problems of these names are gone, and no others. -/
theorem widened_unknown (wide : Widened X known known') (sites : List Site) :
    unknown r known' sites = (unknown r known sites).filter fun d => !about X d := by
  unfold unknown
  rw [List.filter_flatMap]
  refine List.flatMap_congr fun s _ => ?_
  rw [List.filter_map, List.filter_filter]
  refine congrArg _ (List.filter_congr fun v _ => ?_)
  have about : about X (problem s v) = X.contains v.name := by
    rw [Bool.eq_iff_iff, about_problem_iff, List.contains_iff_mem]
  rw [Function.comp_apply, about, Bool.eq_iff_iff]
  simp [wide v.name, and_comm]

/-- The same holds where one binding makes a name known to the next. -/
theorem widened_bind (wide : Widened X known known') (bs : List Binding) :
    (bind r known' bs).1 = (bind r known bs).1.filter fun d => !about X d := by
  induction bs generalizing known known' with
  | nil => rfl
  | cons b bs ih =>
    simp only [bind, List.filter_append]
    rw [widened_unknown wide, ih (widened_extend_same wide [b.name])]

/-- Of the diagnostics of a whole task too, declaring names drops those about the names and no others. -/
theorem widened_taskProblems (wide : Widened X known known') (t : String) :
    taskProblems r p t known' = (taskProblems r p t known).filter fun d => !about X d := by
  unfold taskProblems
  cases p.tasks.get? t with
  | none => rfl
  | some task =>
    simp only [List.filter_append, List.filter_flatMap, widened_unknown wide]
    refine congrArg _ (List.flatMap_congr fun c _ => ?_)
    simp only [clauseProblems, List.filter_append, widened_unknown wide, widened_bind wide]

/-- A task that knows more has fewer problems. -/
theorem taskProblems_subset (part : known ⊆ known') :
    taskProblems r p t known' ⊆ taskProblems r p t known := by
  intro d inside
  rw [← isProblemOf_iff] at inside ⊢
  obtain ⟨task, found, s, earlier, site, v, read, new, rest⟩ := inside
  exact ⟨task, found, s, earlier, site, v, read, fun old => new (part old), rest⟩

theorem mem_gathered_iff {all : List String} :
    n ∈ gathered p t known all ↔ n ∈ all ∨ ∃ task, p.tasks.get? t = some task ∧
      ∃ c ∈ task.clauses, n ∈ known ∨ n ∈ c.publish.map Binding.name := by
  unfold gathered
  cases p.tasks.get? t with
  | none => simp
  | some task =>
    simp only [Option.some.injEq, exists_eq_left']
    generalize task.clauses = clauses
    induction clauses generalizing all with
    | nil => simp
    | cons c clauses ih =>
      rw [List.foldl_cons, ih]
      simp only [mem_extend, List.mem_cons, exists_eq_or_imp, or_assoc]

theorem widened_gathered {all all' : List String} (wide : Widened X known known')
    (before : Widened X all all') : Widened X (gathered p t known all) (gathered p t known' all') := by
  intro n
  simp only [mem_gathered_iff, before n, wide n]
  constructor
  · rintro ((old | new) | ⟨task, found, c, clause, (old | new) | published⟩)
    · exact .inl (.inl old)
    · exact .inr new
    · exact .inl (.inr ⟨task, found, c, clause, .inl old⟩)
    · exact .inr new
    · exact .inl (.inr ⟨task, found, c, clause, .inr published⟩)
  · rintro ((old | ⟨task, found, c, clause, old | published⟩) | new)
    · exact .inl (.inl old)
    · exact .inr ⟨task, found, c, clause, .inl (.inl old)⟩
    · exact .inr ⟨task, found, c, clause, .inr published⟩
    · exact .inl (.inr new)

theorem bind_append (r : Registry) (known : List String) (a b : List Binding) :
    (bind r known (a ++ b)).1 =
      (bind r known a).1 ++ (bind r (extend known (a.map Binding.name)) b).1 := by
  induction a generalizing known with
  | nil => rfl
  | cons c a ih =>
    simp only [List.cons_append, bind, ih, List.append_assoc, List.map_cons]
    rfl

section Record

variable {found ds : List Diagnostic} {keep fresh : Diagnostic → Bool}

/-- Problems that were found before are not recorded again. -/
theorem record_of_subset (old : ds ⊆ found) : record found ds = found := by
  induction ds with
  | nil => rfl
  | cons d ds ih =>
    obtain ⟨here, others⟩ := List.cons_subset.mp old
    rw [record, if_pos (List.contains_iff_mem.mpr here), ih others]

/-- What is kept of recorded problems is recorded of those kept, if the others were not found before.
-/
theorem filter_record (kept : ∀ d, fresh d = true → keep d = true)
    (old : ∀ d, keep d = true → fresh d = false → d ∈ found) :
    (record found ds).filter keep = record (found.filter keep) (ds.filter fresh) := by
  induction ds generalizing found with
  | nil => rfl
  | cons d ds ih =>
    rw [record, List.filter_cons]
    by_cases known : d ∈ found
    · rw [if_pos (List.contains_iff_mem.mpr known), ih old]
      split
      next new =>
        have listed : d ∈ found.filter keep := List.mem_filter.mpr ⟨known, kept d new⟩
        rw [record, if_pos (List.contains_iff_mem.mpr listed)]
      next => rfl
    · have old' : ∀ e, keep e = true → fresh e = false → e ∈ found ++ [d] := fun e keeps stale =>
        List.mem_append_left _ (old e keeps stale)
      rw [if_neg (by rwa [List.contains_iff_mem]), ih old', List.filter_append]
      split
      next new =>
        have missing : d ∉ found.filter keep := fun listed => known (List.mem_of_mem_filter listed)
        rw [record, if_neg (by rwa [List.contains_iff_mem]),
          List.filter_cons_of_pos (kept d new), List.filter_nil]
      next stale =>
        have dropped : ¬keep d = true := fun keeps =>
          known (old d keeps (by simpa using stale))
        rw [List.filter_cons_of_neg dropped, List.filter_nil, List.append_nil]

end Record

end Workflow.Inspection.Vocabulary

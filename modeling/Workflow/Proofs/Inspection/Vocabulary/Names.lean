import Mathlib.Data.List.Nodup
import Workflow.Inspection.Vocabulary

/-!
Known names, and the problems of the sites of a task that reads others. Which names are known
matters, and not their order, so the lemmas are about membership.
-/

namespace Workflow

namespace Plan.Task

/-- The sites of a task, each with the names that the clause it is in has published before. -/
inductive HasSite (t : Plan.Task) : Site → List String → Prop where
  | body {s : Site} (inside : s ∈ t.sites) : HasSite t s []
  | guard {c : Clause} {s : Site} (clause : c ∈ t.clauses) (guarded : c.guard = some s) :
      HasSite t s []
  | entry {c : Clause} {s : Site} {before : List Binding} {b : Binding} {after : List Binding}
      (clause : c ∈ t.clauses) (entries : c.publish = before ++ b :: after) (inside : s ∈ b.sites) :
      HasSite t s (before.map Binding.name)

variable {t : Plan.Task} {s : Site} {earlier : List String}

/-- A site is in the body of the task, where nothing has been published before, or in a clause. -/
theorem HasSite.body_or_clause (site : t.HasSite s earlier) :
    s ∈ t.sites ∧ earlier = [] ∨ s ∈ t.clauses.flatMap Clause.sites := by
  cases site with
  | body inside => exact .inl ⟨inside, rfl⟩
  | @guard c _ clause guarded =>
    refine .inr (List.mem_flatMap.mpr ⟨c, clause, List.mem_append_left _ ?_⟩)
    exact Option.mem_toList.mpr guarded
  | @entry c _ before b after clause entries inside =>
    refine .inr (List.mem_flatMap.mpr ⟨c, clause, List.mem_append_right _ ?_⟩)
    rw [entries]
    exact List.mem_flatMap.mpr ⟨b, List.mem_append_right _ List.mem_cons_self, inside⟩

theorem HasSite.mem (site : t.HasSite s earlier) :
    s ∈ t.sites ++ t.clauses.flatMap Clause.sites :=
  List.mem_append.mpr (site.body_or_clause.imp_left And.left)

end Plan.Task

namespace Inspection.Vocabulary

variable {r : Registry} {known names : List String} {n : String} {d : Diagnostic}

/-- Known names are extended by those that are not known. -/
theorem mem_extend : n ∈ extend known names ↔ n ∈ known ∨ n ∈ names := by
  induction names generalizing known with
  | nil => simp [extend]
  | cons name names ih =>
    rw [extend, ih]
    by_cases inside : name ∈ known
    · rw [if_pos (List.contains_iff_mem.mpr inside), List.mem_cons]
      constructor
      · rintro (old | later)
        · exact .inl old
        · exact .inr (.inr later)
      · rintro (old | rfl | later)
        · exact .inl old
        · exact .inl inside
        · exact .inr later
    · rw [if_neg (by rwa [List.contains_iff_mem])]
      simp [or_assoc]

theorem extend_append (known a b : List String) :
    extend known (a ++ b) = extend (extend known a) b := by
  induction a generalizing known with
  | nil => rfl
  | cons name a ih => simp only [List.cons_append, extend, ih]

theorem nodup_extend (unique : known.Nodup) : (extend known names).Nodup := by
  induction names generalizing known with
  | nil => exact unique
  | cons name names ih =>
    rw [extend]
    by_cases inside : name ∈ known
    · rw [if_pos (List.contains_iff_mem.mpr inside)]
      exact ih unique
    · rw [if_neg (by rwa [List.contains_iff_mem])]
      exact ih (List.concat_eq_append ▸ unique.concat inside)

theorem prefix_extend (known names : List String) : known <+: extend known names := by
  induction names generalizing known with
  | nil => exact List.prefix_refl known
  | cons name names ih =>
    rw [extend]
    split
    · exact ih known
    · exact (List.prefix_append known [name]).trans (ih _)

/-- A name that was not known makes the list longer. -/
theorem length_lt_extend (brought : n ∈ names) (new : n ∉ known) :
    known.length < (extend known names).length := by
  have part := prefix_extend known names
  rcases Nat.lt_or_ge known.length (extend known names).length with longer | short
  · exact longer
  · have same := part.eq_of_length_le short
    have inside : n ∈ extend known names := mem_extend.mpr (.inr brought)
    rw [← same] at inside
    exact absurd inside new

/-- The problems of sites, variable by variable. -/
theorem mem_unknown_iff {sites : List Site} :
    d ∈ unknown r known sites ↔
      ∃ s ∈ sites, ∃ v ∈ r.variableRefs s.text, v.name ∉ known ∧ problem s v = d := by
  unfold unknown
  simp only [List.mem_flatMap, List.mem_map, List.mem_filter, Bool.not_eq_true',
    ← Bool.not_eq_true, List.contains_iff_mem, and_assoc]

theorem bind_snd (r : Registry) (known : List String) (bs : List Binding) :
    (bind r known bs).2 = extend known (bs.map Binding.name) := by
  induction bs generalizing known with
  | nil => rfl
  | cons b bs ih =>
    calc (bind r known (b :: bs)).2 = (bind r (extend known [b.name]) bs).2 := rfl
      _ = extend (extend known [b.name]) (bs.map Binding.name) := ih _
      _ = extend known ((b :: bs).map Binding.name) := (extend_append _ _ _).symm

/-- The problems of bindings are those of their sites, where the names before them are known, too.
-/
theorem mem_bind_iff {bs : List Binding} :
    d ∈ (bind r known bs).1 ↔
      ∃ before b after, bs = before ++ b :: after ∧
        d ∈ unknown r (extend known (before.map Binding.name)) b.sites := by
  induction bs generalizing known with
  | nil => simp [bind]
  | cons b bs ih =>
    have parts : (bind r known (b :: bs)).1 =
        unknown r known b.sites ++ (bind r (extend known [b.name]) bs).1 := rfl
    rw [parts, List.mem_append, ih]
    constructor
    · rintro (own | ⟨before, c, after, rfl, later⟩)
      · exact ⟨[], b, bs, rfl, own⟩
      · refine ⟨b :: before, c, after, rfl, ?_⟩
        rw [List.map_cons, ← List.singleton_append, extend_append]
        exact later
    · rintro ⟨before, c, after, same, found⟩
      cases before with
      | nil =>
        obtain ⟨rfl, rfl⟩ := List.cons.inj same
        exact .inl found
      | cons e before =>
        obtain ⟨rfl, rfl⟩ := List.cons.inj same
        refine .inr ⟨before, c, after, rfl, ?_⟩
        rw [List.map_cons, ← List.singleton_append, extend_append] at found
        exact found

/-- What is found at bindings is found at one of their sites. -/
theorem exists_site_of_mem_bind {bs : List Binding} (found : d ∈ (bind r known bs).1) :
    ∃ s ∈ bs.flatMap Binding.sites, ∃ v, d = problem s v := by
  obtain ⟨before, b, after, rfl, own⟩ := mem_bind_iff.mp found
  obtain ⟨s, site, v, _, _, rfl⟩ := mem_unknown_iff.mp own
  exact ⟨s, List.mem_flatMap.mpr ⟨b, List.mem_append_right _ List.mem_cons_self, site⟩, v, rfl⟩

/-- A problem tells the path of its site and the name of its variable. -/
theorem eq_of_problem_eq {s s' : Site} {v v' : VariableRef} (same : problem s v = problem s' v') :
    s.path = s'.path ∧ v.name = v'.name := by
  constructor
  · simpa [problem] using congrArg Diagnostic.specPath same
  · simpa [problem] using congrArg Diagnostic.message same

theorem mem_record_iff {found ds : List Diagnostic} : d ∈ record found ds ↔ d ∈ found ∨ d ∈ ds := by
  induction ds generalizing found with
  | nil => simp [record]
  | cons e ds ih =>
    rw [record, ih]
    by_cases inside : e ∈ found
    · rw [if_pos (List.contains_iff_mem.mpr inside), List.mem_cons]
      constructor
      · rintro (old | later)
        · exact .inl old
        · exact .inr (.inr later)
      · rintro (old | rfl | later)
        · exact .inl old
        · exact .inl inside
        · exact .inr later
    · rw [if_neg (by rwa [List.contains_iff_mem])]
      simp [or_assoc]

theorem record_append (found a b : List Diagnostic) :
    record found (a ++ b) = record (record found a) b := by
  induction a generalizing found with
  | nil => rfl
  | cons d a ih => simp only [List.cons_append, record, ih]

/-- The problems of a clause for a task that knows these names. -/
def clauseProblems (r : Registry) (known : List String) (c : Plan.Clause) : List Diagnostic :=
  unknown r known c.guard.toList ++ (bind r known c.publish).1

/-- The problems of a task that knows these names are those of its sites: variables that neither the
task knows nor the clause has published before. -/
theorem mem_taskProblems_iff {t : Plan.Task} :
    d ∈ unknown r known t.sites ∨ (∃ c ∈ t.clauses, d ∈ clauseProblems r known c) ↔
      ∃ s earlier, t.HasSite s earlier ∧ ∃ v ∈ r.variableRefs s.text,
        v.name ∉ known ∧ v.name ∉ earlier ∧ problem s v = d := by
  constructor
  · rintro (body | ⟨c, clause, found⟩)
    · obtain ⟨s, inside, v, read, new, same⟩ := mem_unknown_iff.mp body
      exact ⟨s, [], .body inside, v, read, new, List.not_mem_nil, same⟩
    · rcases List.mem_append.mp found with guard | publish
      · obtain ⟨s, guarded, v, read, new, same⟩ := mem_unknown_iff.mp guard
        exact ⟨s, [], .guard clause (Option.mem_toList.mp guarded), v, read, new,
          List.not_mem_nil, same⟩
      · obtain ⟨before, b, after, entries, found⟩ := mem_bind_iff.mp publish
        obtain ⟨s, inside, v, read, new, same⟩ := mem_unknown_iff.mp found
        rw [mem_extend, not_or] at new
        exact ⟨s, _, .entry clause entries inside, v, read, new.1, new.2, same⟩
  · rintro ⟨s, earlier, site, v, read, new, new', same⟩
    cases site with
    | body inside => exact .inl (mem_unknown_iff.mpr ⟨s, inside, v, read, new, same⟩)
    | @guard c _ clause guarded =>
      refine .inr ⟨c, clause, List.mem_append_left _ (mem_unknown_iff.mpr ?_)⟩
      exact ⟨s, Option.mem_toList.mpr guarded, v, read, new, same⟩
    | @entry c _ before b after clause entries inside =>
      refine .inr ⟨c, clause, List.mem_append_right _ (mem_bind_iff.mpr ?_)⟩
      refine ⟨before, b, after, entries, mem_unknown_iff.mpr ⟨s, inside, v, read, ?_, same⟩⟩
      rw [mem_extend, not_or]
      exact ⟨new, new'⟩

end Inspection.Vocabulary

end Workflow

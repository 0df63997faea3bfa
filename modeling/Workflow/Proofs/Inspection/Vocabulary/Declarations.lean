import Mathlib
import Workflow.Dialect.Delimited
import Workflow.Proofs.Inspection.Vocabulary.Mirror
import Workflow.Proofs.Inspection.Vocabulary.Reports
import Workflow.Proofs.Plan.Sites

/-!
What more declarations change: the problems of the variables that they declare are not found any more,
unless they stand in a declaration, which reads only the ones before it. All other problems are found
in the same order, and no new one is (`problems_declaring`).
-/

namespace Workflow

namespace Plan

def declaring (p : Plan) (extra : List Binding) : Plan :=
  { p with vars := p.vars ++ extra }

end Plan

namespace Inspection.Vocabulary

variable {r : Registry} {p : Plan} {extra : List Binding} {e : Diagnostic}

/-- No text of the declarations reads a variable. -/
def Silent (r : Registry) (extra : List Binding) : Prop :=
  ∀ b ∈ extra, ∀ s ∈ b.sites, r.variableRefs s.text = []

theorem bind_of_silent (silent : Silent r extra) (known : List String) :
    (bind r known extra).1 = [] := by
  induction extra generalizing known with
  | nil => rfl
  | cons b bs ih =>
    obtain ⟨own, others⟩ := List.forall_mem_cons.mp silent
    have none_ : unknown r known b.sites = [] := by
      unfold unknown
      rw [List.flatMap_eq_nil_iff]
      intro s inside
      rw [own s inside]
      rfl
    have parts : (bind r known (b :: bs)).1 =
        unknown r known b.sites ++ (bind r (extend known [b.name]) bs).1 := rfl
    rw [parts, none_, ih others]
    rfl

/-- The starts of the two runs. -/
theorem mirror_outset (silent : Silent r extra) :
    Mirror r p (extra.map Binding.name) (outset r p).found (outset r p)
      (outset r (p.declaring extra)) := by
  have found : (outset r (p.declaring extra)).found = (outset r p).found := by
    unfold outset State.start Plan.declaring
    dsimp only
    rw [← List.append_assoc, bind_append, bind_of_silent silent, List.append_nil]
  have all : Widened (extra.map Binding.name) (outset r p).all
      (outset r (p.declaring extra)).all := by
    intro n
    unfold outset State.start Plan.declaring
    dsimp only
    rw [bind_snd, bind_snd]
    simp only [mem_extend, List.map_append, List.mem_append]
    tauto
  have queue : ∀ (starts : List String) (come : String → List String → Prop),
      Mirrors p (extra.map Binding.name) come (starts.map fun t => (t, (outset r p).all))
        (starts.map fun t => (t, (outset r (p.declaring extra)).all)) := by
    intro starts
    induction starts with
    | nil => exact fun _ => .nil
    | cons t starts ih => exact fun _ => .both all (ih _)
  refine ⟨⟨queue p.starts _, fun _ => .none⟩, fun _ => .none, all, ?_, List.Subset.refl _, ?_⟩
  · rw [found]
    refine (List.filter_eq_self.mpr fun d inside => ?_).symm
    unfold keeps
    rw [List.contains_iff_mem.mpr inside, Bool.true_or]
  · exact ⟨nofun, nofun, nofun, nofun⟩

/-- With more declarations, the problems of the declarations are found again, and those of other
variables. -/
theorem problems_declaring (silent : Silent r extra) :
    problems r (p.declaring extra) =
      (problems r p).filter (keeps (extra.map Binding.name) (outset r p).found) := by
  obtain ⟨f, worked, run, done⟩ := exists_final r p
  obtain ⟨f', worked', run', done'⟩ := exists_final r (p.declaring extra)
  obtain ⟨g, matched, mirror⟩ := mirror_runs (mirror_outset silent) run
  have finished : step p r g = .ok none := by
    have queue := mirror.abreast.queue
    rw [queue_eq_nil_of_step done] at queue
    generalize rest : g.queue = q at queue
    cases queue
    exact step_of_nil rest
  -- Steps do not read declarations, so both are the state in which the second run ends.
  have same : f' = g := Runs.end_unique run' done' matched finished
  have ends : ending r p = f := by
    unfold ending
    rw [worked]
  have ends' : ending r (p.declaring extra) = g := by
    unfold ending
    rw [worked', same]
  have parts : ∀ p, problems r p = record (ending r p).found (bind r (ending r p).all p.outputs).1 :=
    fun _ => rfl
  rw [parts, parts, ends, ends', filter_record_keeps mirror.first, mirror.found]
  exact congrArg _ (widened_bind mirror.all p.outputs)

/-- The texts of a problem that is kept by neither look are later ones. -/
theorem exists_laterSite (inside : e ∈ problems r p) (new : e ∉ (outset r p).found) :
    ∃ s ∈ p.laterSites, ∃ v, e = problem s v := by
  have declaring : e ∉ (bind r [] (p.inputs ++ p.vars)).1 := fun found =>
    new (mem_record_iff.mpr (.inr found))
  rcases mem_problems_iff.mp inside with found | ⟨t, s, earlier, v, reported, rfl⟩ | output
  · exact absurd found declaring
  · obtain ⟨task, _, found, site, _⟩ := reported
    have value := Table.mem_values_of_get? found
    exact ⟨s, List.mem_append_left _ (List.mem_flatMap.mpr ⟨task, value, site.mem⟩), v, rfl⟩
  · obtain ⟨s, site, v, rfl⟩ := exists_site_of_mem_bind output
    exact ⟨s, List.mem_append_right _ site, v, rfl⟩

theorem exists_declaration (found : e ∈ (outset r p).found) :
    ∃ s ∈ (p.inputs ++ p.vars).flatMap Binding.sites, ∃ v, e = problem s v :=
  exists_site_of_mem_bind ((mem_record_iff.mp found).resolve_left List.not_mem_nil)

/-- Is it a problem of a variable with one of these names, in a text of a task or of an output? -/
def resolved (p : Plan) (X : List String) (e : Diagnostic) : Bool :=
  (p.laterSites.any fun s => e.specPath == some s.path) && about X e

theorem keeps_eq_not_resolved {d : Definition} {X : List String}
    (inside : e ∈ problems r (.ofDefinition d)) :
    keeps X (outset r (.ofDefinition d)).found e = !resolved (.ofDefinition d) X e := by
  unfold keeps resolved
  by_cases found : e ∈ (outset r (.ofDefinition d)).found
  · obtain ⟨s, declared, v, rfl⟩ := exists_declaration found
    have elsewhere : ((Plan.ofDefinition d).laterSites.any fun s' =>
        (problem s v).specPath == some s'.path) = false := by
      rw [List.any_eq_false]
      intro s' later same
      exact path_ne_of_declaration declared later (by simpa [problem] using same)
    rw [List.contains_iff_mem.mpr found, elsewhere, Bool.true_or, Bool.false_and, Bool.not_false]
  · obtain ⟨s, later, v, rfl⟩ := exists_laterSite inside found
    have here : ((Plan.ofDefinition d).laterSites.any fun s' =>
        (problem s v).specPath == some s'.path) = true :=
      List.any_eq_true.mpr ⟨s, later, by simp [problem]⟩
    have other : (outset r (.ofDefinition d)).found.contains (problem s v) = false := by
      rw [← Bool.not_eq_true, List.contains_iff_mem]
      exact found
    rw [here, other, Bool.false_or, Bool.true_and]

end Inspection.Vocabulary

/-- The value holds no text that reads a variable. -/
def Definition.Parameter.Silent (r : Registry) (q : Definition.Parameter) : Prop :=
  ∀ v, q.value = some v → ∀ text ∈ v.strings.map Prod.snd, r.variableRefs text = []

namespace Inspection.Vocabulary

variable {r : Registry} {d : Definition} {extra : List Definition.Parameter}

theorem silent_bindingsFrom (silent : ∀ q ∈ extra, q.Silent r) (path schema : String) (i : Nat) :
    Silent r (bindingsFrom path schema i extra) := by
  induction extra generalizing i with
  | nil => nofun
  | cons q qs ih =>
    obtain ⟨own, others⟩ := List.forall_mem_cons.mp silent
    rw [bindingsFrom]
    refine List.forall_mem_cons.mpr ⟨fun s inside => ?_, ih others (i + 1)⟩
    dsimp only at inside
    split at inside
    next v value =>
      rw [Value.sites_eq] at inside
      obtain ⟨x, listed, rfl⟩ := List.mem_map.mp inside
      exact own v value x.2 (List.mem_map.mpr ⟨x, listed, rfl⟩)
    next => cases inside

theorem ofDefinition_declaring (d : Definition) (extra : List Definition.Parameter) :
    Plan.ofDefinition { d with vars := d.vars ++ extra } =
      (Plan.ofDefinition d).declaring
        (bindingsFrom "vars" "properties.vars" d.vars.length extra) := by
  unfold Plan.ofDefinition Plan.declaring bindings
  dsimp only
  rw [bindingsFrom_append, Nat.zero_add]

/-- Declaring more variables without expressions removes the problems of variables with these names in
the texts of tasks and of outputs; the others stay, in the same order. -/
theorem problems_of_declarations (silent : ∀ q ∈ extra, q.Silent r) :
    problems r (.ofDefinition { d with vars := d.vars ++ extra }) =
      (problems r (.ofDefinition d)).filter fun e =>
        !resolved (.ofDefinition d) (extra.map Definition.Parameter.name) e := by
  rw [ofDefinition_declaring, problems_declaring (silent_bindingsFrom silent _ _ _),
    names_bindingsFrom]
  exact List.filter_congr fun e inside => keeps_eq_not_resolved inside

/-- A definition that reads `x` in a declaration, and in a join on a loop. -/
def loopRead : Definition where
  input := [⟨"w", some (.string "<% ctx(x) %>")⟩]
  tasks := .ofList [("a", { next := [{ destinations := ["t"] }] }),
    ("t", reader (some .all) [publishing "t"])]

def declarationSite : Site :=
  ⟨"input[0].w", "properties.input", "<% ctx(x) %>"⟩

/-- The declaration still reads the variable too early, and the join reads it no more without it. -/
theorem loopRead_declaring :
    (∀ q ∈ [(⟨"x", some (.string "later")⟩ : Definition.Parameter)], q.Silent percentOnly) ∧
      problems percentOnly (.ofDefinition loopRead) =
        [problem declarationSite readVariable, problem (readAt "t") readVariable] ∧
      problems percentOnly (.ofDefinition
          { loopRead with vars := loopRead.vars ++ [⟨"x", some (.string "later")⟩] }) =
        [problem declarationSite readVariable] := by
  have silent : ∀ q ∈ [(⟨"x", some (.string "later")⟩ : Definition.Parameter)],
      q.Silent percentOnly := by
    have none_ : percentOnly.variableRefs "later" = [] := by cbv
    intro q inside v value text listed
    rw [List.mem_singleton.mp inside] at value
    cases value
    rw [List.mem_singleton.mp listed]
    exact none_
  have before : problems percentOnly (.ofDefinition loopRead) =
      [problem declarationSite readVariable, problem (readAt "t") readVariable] := by
    decide +kernel
  refine ⟨silent, before, ?_⟩
  rw [problems_of_declarations silent, before]
  decide +kernel

end Inspection.Vocabulary

end Workflow

import Workflow.Proofs.Inspection.Vocabulary.Bounds
import Workflow.Proofs.Inspection.Vocabulary.Declarations
import Workflow.Proofs.Plan.Network

/-!
What outputs may read. In the end, the analysis has come to know the names that are declared, and those
that are published by clauses of tasks that are reached, wherever these lead (`mem_all_ending_iff`): each
task that is reached is worked through at least once, and then all its clauses are. So an output is
reported just if it reads a name that is none of these, nor that of an earlier output
(`output_reported_iff`).
-/

namespace Workflow

namespace Plan

variable {p : Plan} {t n : String} {a : Address} {names : List String}

def Publishes (p : Plan) (t n : String) : Prop :=
  ∃ task, p.tasks.get? t = some task ∧ ∃ c ∈ task.clauses, n ∈ c.publish.map Binding.name

/-- The tasks that are reached are those with a route, so far as they are defined. -/
theorem reached_iff_exists_route (known : t ∈ p.tasks.names) :
    p.Reached t ↔ ∃ a names, p.Route a t names := by
  constructor
  · intro reached
    induction reached with
    | start first =>
      obtain ⟨i, first⟩ := List.mem_iff_getElem?.mp first
      exact ⟨_, _, .start first⟩
    | @follow t d task c _ found clause destination plain ih =>
      obtain ⟨a, names, route⟩ := ih (Table.mem_names_iff.mpr ⟨task, found⟩)
      have on : p.leadsOn d = true := by
        simp [leadsOn, plain, Table.contains_iff.mpr known]
      obtain ⟨i, exit⟩ := List.mem_iff_getElem?.mp
        (mem_exits_iff.mpr ⟨task, found, c, clause, destination, on, rfl⟩)
      exact ⟨_, _, route.follow exit⟩
  · rintro ⟨a, names, route⟩
    clear known
    induction route with
    | start first => exact .start (List.mem_of_getElem? first)
    | follow _ exit ih =>
      obtain ⟨task, found, c, clause, destination, on, _⟩ :=
        mem_exits_iff.mp (List.mem_of_getElem? exit)
      rw [leadsOn, Bool.and_eq_true, Bool.not_eq_true'] at on
      exact ih.follow found clause destination on.1

theorem Publishes.reached_iff_exists_route (publishes : p.Publishes t n) :
    p.Reached t ↔ ∃ a names, p.Route a t names := by
  obtain ⟨task, found, _⟩ := publishes
  exact Plan.reached_iff_exists_route (Table.mem_names_iff.mpr ⟨task, found⟩)

/-- What is on a route is declared, or some task that is reached publishes it. -/
theorem Route.origin (route : p.Route a t names) (inside : n ∈ names) :
    n ∈ p.declared ∨ ∃ u, p.Reached u ∧ p.Publishes u n := by
  induction route with
  | start _ => exact .inl inside
  | @follow a t d names published i before exit ih =>
    rcases List.mem_append.mp inside with old | new
    · exact ih old
    · obtain ⟨task, found, c, clause, _, _, rfl⟩ := mem_exits_iff.mp (List.mem_of_getElem? exit)
      have publishes : p.Publishes t n := ⟨task, found, c, clause, new⟩
      exact .inr ⟨t, publishes.reached_iff_exists_route.mpr ⟨_, _, before⟩, publishes⟩

end Plan

namespace Inspection.Vocabulary

variable {r : Registry} {p : Plan} {s : State} {n : String} {worked skipped : List String}

/-- All names are declared, or published by tasks that are reached; and those that are declared, or
published by tasks that have been worked through, are among them. -/
theorem Logged.all_names (logged : Logged r p worked skipped s) :
    (∀ n ∈ s.all, n ∈ p.declared ∨ ∃ t, p.Reached t ∧ p.Publishes t n) ∧
      ∀ n, (n ∈ p.declared ∨ ∃ t ∈ worked, p.Publishes t n) → n ∈ s.all := by
  induction logged with
  | outset =>
    have all : (Vocabulary.outset r p).all = extend [] p.declared := bind_snd _ _ _
    simp only [all, mem_extend, List.not_mem_nil, false_or, false_and, exists_false, or_false]
    exact ⟨fun _ => .inl, fun _ => id⟩
  | @work worked skipped s t brought queue before next works ih =>
    obtain ⟨sound, complete⟩ := ih
    have all : (visit p r { s with queue := queue } t brought).all =
        gathered p t (s.learned t brought) s.all := by rw [visit_eq works]
    rw [all]
    refine ⟨fun n inside => ?_, fun n => ?_⟩
    · obtain ⟨past, turns, tallied⟩ := before.exists_tallied
      cases turns with
      | nil => cases next.symm.trans tallied.walked.queue
      | cons y rest =>
        cases next.symm.trans tallied.walked.queue
        obtain ⟨_, route⟩ :=
          tallied.walked.exists_route (List.mem_append_right past List.mem_cons_self)
        rcases mem_gathered_iff.mp inside with old | ⟨task, found, c, clause, learned | published⟩
        · exact sound n old
        · obtain ⟨_, _, _, timely, known⟩ := tallied.walked.learns_head learned
          obtain ⟨_, route'⟩ := timely.on_route
          exact route'.origin known
        · have publishes : p.Publishes y.task n := ⟨task, found, c, clause, published⟩
          exact .inr ⟨_, publishes.reached_iff_exists_route.mpr ⟨_, _, route⟩, publishes⟩
    · rw [mem_gathered_iff, exists_mem_concat_iff, ← or_assoc]
      rintro (old | ⟨task, found, c, clause, published⟩)
      · exact .inl (complete n old)
      · exact .inr ⟨task, found, c, clause, .inr published⟩
  | @skip worked skipped s t brought queue _ _ skips ih =>
    rw [visit_skips skips]
    exact ih

/-- In the end, the names are those that are declared or published by tasks that are reached. -/
theorem mem_all_ending_iff :
    n ∈ (ending r p).all ↔ n ∈ p.declared ∨ ∃ t, p.Reached t ∧ p.Publishes t n := by
  obtain ⟨final, ends, run, done⟩ := exists_final r p
  have same : ending r p = final := by
    unfold ending
    rw [ends]
  obtain ⟨worked, skipped, logged⟩ := exists_logged run
  obtain ⟨past, turns, tallied⟩ := logged.exists_tallied
  have finished : turns = [] := tallied.walked.turns_eq_nil done
  subst finished
  rw [same]
  refine ⟨logged.all_names.1 n, fun origin => logged.all_names.2 n (origin.imp_right ?_)⟩
  rintro ⟨t, reached, publishes⟩
  obtain ⟨a, names, route⟩ := publishes.reached_iff_exists_route.mp reached
  rcases tallied.walked.reached route with ⟨y, waits, _⟩ | ⟨x, passed, rfl, _⟩
  · cases waits
  · rw [tallied.tasks]
    exact ⟨_, List.mem_map_of_mem passed, publishes⟩

section Outputs

variable {d : Definition} {before after : List Binding} {b : Binding} {s s' : Site}
  {v v' : VariableRef} {known : List String}

/-- Outputs are read where no others are, so what is found there tells the output that reads it. -/
theorem problem_mem_bind_outputs_iff (outputs : (Plan.ofDefinition d).outputs = before ++ b :: after)
    (site : s ∈ b.sites) (read : v ∈ r.variableRefs s.text) :
    problem s v ∈ (bind r known (Plan.ofDefinition d).outputs).1 ↔
      v.name ∉ known ∧ v.name ∉ before.map Binding.name := by
  rw [mem_bind_iff, ← not_or, ← mem_extend]
  constructor
  · rintro ⟨before', b', after', outputs', found⟩
    obtain ⟨s', site', v', _, new, same⟩ := mem_unknown_iff.mp found
    obtain ⟨path, name⟩ := eq_of_problem_eq same
    rwa [output_eq_of_path_eq outputs outputs' site site' path.symm, ← name]
  · intro new
    exact ⟨before, b, after, outputs, mem_unknown_iff.mpr ⟨s, site, v, read, new, rfl⟩⟩

/-- Nothing that is found at declarations or at tasks stands at an output. -/
theorem not_problem_elsewhere (site : s ∈ (Plan.ofDefinition d).outputs.flatMap Binding.sites) :
    problem s v ∉ (bind r [] ((Plan.ofDefinition d).inputs ++ (Plan.ofDefinition d).vars)).1 ∧
      ¬∃ t s' earlier v', Reported r (.ofDefinition d) t s' earlier v' ∧
        problem s' v' = problem s v := by
  have output : Under "output" s.path := under_of_mem_bindingsFrom ⟨"", rfl⟩ site
  constructor
  · intro found
    obtain ⟨s', declared, v', same⟩ := exists_site_of_mem_bind found
    exact path_ne_of_declaration declared (List.mem_append_right _ site) (eq_of_problem_eq same).1.symm
  · rintro ⟨t, s', earlier, v', ⟨task, _, defined, own, _⟩, same⟩
    have task : Under "tasks." s'.path := under_of_mem_taskSites
      (List.mem_flatMap.mpr ⟨task, Table.mem_values_of_get? defined, own.mem⟩)
    exact task.ne output rfl rfl (by decide) (eq_of_problem_eq same).1

/-- A variable that an output reads is reported there just if it is not declared, not the name of an
earlier output, and no task that is reached publishes it. -/
theorem output_reported_iff (outputs : (Plan.ofDefinition d).outputs = before ++ b :: after)
    (site : s ∈ b.sites) (read : v ∈ r.variableRefs s.text) :
    problem s v ∈ problems r (.ofDefinition d) ↔
      v.name ∉ (Plan.ofDefinition d).declared ∧ v.name ∉ before.map Binding.name ∧
        ∀ t, (Plan.ofDefinition d).Reached t → ¬(Plan.ofDefinition d).Publishes t v.name := by
  have among : s ∈ (Plan.ofDefinition d).outputs.flatMap Binding.sites := by
    rw [outputs]
    exact List.mem_flatMap.mpr ⟨b, List.mem_append_right _ List.mem_cons_self, site⟩
  obtain ⟨undeclared, untold⟩ := not_problem_elsewhere (r := r) (v := v) among
  rw [mem_problems_iff, or_iff_right undeclared, or_iff_right untold,
    problem_mem_bind_outputs_iff outputs site read, mem_all_ending_iff]
  simp only [not_or, not_exists, not_and]
  tauto

/-- One output reads what only a task publishes that is not reached; another one reads what a join in a
loop publishes by a clause that leads to no task. -/
def unheardRead : Definition where
  output := [⟨"first", some (.string "<% ctx(x) %>")⟩, ⟨"last", some (.string "<% ctx(y) %>")⟩]
  tasks := .ofList
    [("a", { next := [{ destinations := ["j"] }] }),
     ("j", { join := some .all
             next := [{ publish := [⟨"y", none⟩], destinations := ["noop", "lost"] },
               { destinations := ["k"] }] }),
     ("k", { next := [{ destinations := ["j"] }] }),
     ("u", { next := [publishing "u"] })]

def outputAt (i : Nat) (name text : String) : Site :=
  ⟨"output" ++ (Step.index i).text ++ (Step.key name).text, "properties.output", text⟩

def firstOutput : Binding :=
  ⟨"first", [outputAt 0 "first" "<% ctx(x) %>"]⟩

def lastOutput : Binding :=
  ⟨"last", [outputAt 1 "last" "<% ctx(y) %>"]⟩

theorem unheardRead_reported :
    (Plan.ofDefinition unheardRead).outputs = [] ++ firstOutput :: [lastOutput] ∧
      (Plan.ofDefinition unheardRead).outputs = [firstOutput] ++ lastOutput :: [] ∧
      ⟨"percent", "<% ctx(x) %>", "x"⟩ ∈ percentOnly.variableRefs "<% ctx(x) %>" ∧
      ⟨"percent", "<% ctx(y) %>", "y"⟩ ∈ percentOnly.variableRefs "<% ctx(y) %>" ∧
      problem (outputAt 0 "first" "<% ctx(x) %>") ⟨"percent", "<% ctx(x) %>", "x"⟩ ∈
        problems percentOnly (.ofDefinition unheardRead) ∧
      problem (outputAt 1 "last" "<% ctx(y) %>") ⟨"percent", "<% ctx(y) %>", "y"⟩ ∉
        problems percentOnly (.ofDefinition unheardRead) := by
  have first : (Plan.ofDefinition unheardRead).outputs = [] ++ firstOutput :: [lastOutput] := rfl
  have last : (Plan.ofDefinition unheardRead).outputs = [firstOutput] ++ lastOutput :: [] := rfl
  have readX : ⟨"percent", "<% ctx(x) %>", "x"⟩ ∈ percentOnly.variableRefs "<% ctx(x) %>" :=
    readVariable_mem "u"
  have readY : ⟨"percent", "<% ctx(y) %>", "y"⟩ ∈ percentOnly.variableRefs "<% ctx(y) %>" := by
    have refs : percentOnly.variableRefs "<% ctx(y) %>" = [⟨"percent", "<% ctx(y) %>", "y"⟩] := by
      cbv
    exact refs ▸ List.mem_singleton_self _
  have starts : (Plan.ofDefinition unheardRead).starts = ["a"] := by
    cbv
  have heard : (Plan.ofDefinition unheardRead).Reached "j" :=
    .follow (.start (starts ▸ List.mem_singleton_self "a")) rfl List.mem_cons_self
      List.mem_cons_self rfl
  -- Only the task itself leads to the one that publishes `x`.
  have into : (Plan.ofDefinition unheardRead).prev "u" = [⟨"u", none, 0⟩] := by
    cbv
  have unheard : ∀ t, (Plan.ofDefinition unheardRead).Reached t → t ≠ "u" := by
    intro t reached
    induction reached with
    | start first =>
      rw [starts, List.mem_singleton] at first
      rw [first]
      decide
    | follow _ found clause destination _ ih =>
      rintro rfl
      have leads :=
        Plan.mem_prev_iff.mpr (Plan.mem_successors_iff.mpr ⟨_, found, _, clause, destination⟩)
      rw [into] at leads
      exact ih (List.mem_singleton.mp leads)
  have publisher : ∀ e ∈ (Plan.ofDefinition unheardRead).tasks.entries, ∀ c ∈ e.2.clauses,
      "x" ∈ c.publish.map Binding.name → e.1 = "u" := by
    decide
  refine ⟨first, last, readX, readY, ?_, fun reported => ?_⟩
  · refine (output_reported_iff first List.mem_cons_self readX).mpr ⟨by decide, by decide, ?_⟩
    rintro t reached ⟨task, found, c, clause, published⟩
    exact unheard t reached (publisher _ (Table.get?_eq_some_iff.mp found) c clause published)
  · have silent := ((output_reported_iff last List.mem_cons_self readY).mp reported).2.2
    exact silent "j" heard ⟨_, rfl, _, List.mem_cons_self, List.mem_singleton_self "y"⟩

end Outputs

end Inspection.Vocabulary

end Workflow

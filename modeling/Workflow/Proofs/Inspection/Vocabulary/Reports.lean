import Mathlib
import Workflow.Dialect.Delimited
import Workflow.Proofs.Inspection.Vocabulary.Runs
import Workflow.Proofs.Plan.Paths

/-!
What the analysis reports. The problems of a plan are those of its declarations, those reported at
the sites of its tasks, and those of its outputs (`mem_problems_iff`). A variable is reported at a
site just if no route that is in time for the first turn of the task defines it (`reported_iff`). So
what is reported lies between what some route leaves undefined and what all routes leave undefined;
at a join, the routes that are in time count, and without joins, the first route counts alone. Where
a task has the path of a site in its body for itself, the problem that is among those of the plan
tells what is reported there (`problem_mem_problems_iff`).
-/

namespace Workflow.Inspection.Vocabulary

variable {r : Registry} {p : Plan} {t : String} {task : Plan.Task} {s : Site}
  {earlier names : List String} {v : VariableRef} {a : Address} {d : Diagnostic}

/-- The variable is reported at a site of the task: at some visit, neither the task knows its name
nor the clause of the site has published it before. -/
def Reported (r : Registry) (p : Plan) (t : String) (s : Site) (earlier : List String)
    (v : VariableRef) : Prop :=
  ∃ task known, p.tasks.get? t = some task ∧ task.HasSite s earlier ∧ v ∈ r.variableRefs s.text ∧
    Visits r p t known ∧ v.name ∉ known ∧ v.name ∉ earlier

def ending (r : Registry) (p : Plan) : State :=
  match workOff (step p r) (maxSteps p) (outset r p) with
  | some (.ok s) => s
  | _ => outset r p

/-- The problems are those of the declarations, of what is reported at tasks, and of the outputs,
which read all that was ever known. -/
theorem mem_problems_iff :
    d ∈ problems r p ↔ d ∈ (bind r [] (p.inputs ++ p.vars)).1 ∨
      (∃ t s earlier v, Reported r p t s earlier v ∧ problem s v = d) ∨
      d ∈ (bind r (ending r p).all p.outputs).1 := by
  have parts : problems r p =
      ((ending r p).report (bind r (ending r p).all p.outputs).1).found := rfl
  obtain ⟨final, worked, run, done⟩ := exists_final r p
  have same : ending r p = final := by
    unfold ending
    rw [worked]
  have reports : (∃ t known, Visits r p t known ∧ IsProblemOf r p t known d) ↔
      ∃ t s earlier v, Reported r p t s earlier v ∧ problem s v = d := by
    constructor
    · rintro ⟨t, known, visits, task, defined, s, earlier, site, v, read, new, new', same⟩
      exact ⟨t, s, earlier, v, ⟨task, known, defined, site, read, visits, new, new'⟩, same⟩
    · rintro ⟨t, s, earlier, v, ⟨task, known, defined, site, read, visits, new, new'⟩, same⟩
      exact ⟨t, known, visits, task, defined, s, earlier, site, v, read, new, new', same⟩
  have found : d ∈ final.found ↔ d ∈ (bind r [] (p.inputs ++ p.vars)).1 ∨
      ∃ t known, Visits r p t known ∧ IsProblemOf r p t known d := by
    constructor
    · intro inside
      obtain ⟨past, turns, walked, visits⟩ := exists_walked run
      refine ((walked.found d).mp inside).imp_right ?_
      exact fun ⟨x, passed, rest⟩ => ⟨x.task, x.names, visits x passed, rest⟩
    · rintro (declaring | ⟨t, known, visits, rest⟩)
      · obtain ⟨past, turns, walked, _⟩ := exists_walked run
        exact (walked.found d).mpr (.inl declaring)
      · obtain ⟨past, turns, walked, x, passed, rfl, rfl⟩ := visits.exists_passed run done
        exact (walked.found d).mpr (.inr ⟨x, passed, rest⟩)
  rw [parts, same]
  unfold State.report
  rw [mem_record_iff, found, reports, or_assoc]

theorem Reported.mem_problems (reported : Reported r p t s earlier v) :
    problem s v ∈ problems r p :=
  mem_problems_iff.mpr (.inr (.inl ⟨t, s, earlier, v, reported, rfl⟩))

/-- Where no other text has the path of a site in the body of a task, the problem of a variable is found
just if the variable is reported there. -/
theorem problem_mem_problems_iff (defined : p.tasks.get? t = some task) (body : s ∈ task.sites)
    (read : v ∈ r.variableRefs s.text) (owns : p.OwnsPath t s.path) :
    problem s v ∈ problems r p ↔ Reported r p t s [] v := by
  refine ⟨fun found => ?_, Reported.mem_problems⟩
  rcases mem_problems_iff.mp found with declaring | ⟨u, s', earlier, v', reported, same⟩ | output
  · obtain ⟨s', site, v', same⟩ := exists_site_of_mem_bind declaring
    refine absurd (eq_of_problem_eq same).1.symm (owns.bindings s' ?_)
    exact List.flatMap_append ▸ List.mem_append_left _ site
  · obtain ⟨task', known, defined', site, _, visits, new, _⟩ := reported
    obtain ⟨path, name⟩ := eq_of_problem_eq same
    rcases site.body_or_clause with ⟨body', rfl⟩ | clause
    · obtain rfl : u = t := by
        by_contra other
        exact owns.bodies u task' defined' other s' body' path
      exact ⟨task, known, defined, .body body, read, visits, name ▸ new, List.not_mem_nil⟩
    · exact absurd path (owns.clauses u task' defined' s' clause)
  · obtain ⟨s', site, v', same⟩ := exists_site_of_mem_bind output
    refine absurd (eq_of_problem_eq same).1.symm (owns.bindings s' ?_)
    exact List.flatMap_append ▸ List.mem_append_right _ site

/-- What is reported at a task is decided by the routes that are in time for its first turn. -/
theorem reported_iff (defined : p.tasks.get? t = some task) (site : task.HasSite s earlier)
    (read : v ∈ r.variableRefs s.text) (first : p.IsFirst t a) :
    Reported r p t s earlier v ↔
      v.name ∉ earlier ∧ ∀ names, p.InTime a t names → v.name ∉ names := by
  constructor
  · rintro ⟨_, known, _, _, _, visits, new, new'⟩
    obtain ⟨b, first', part⟩ := subset_of_visits visits
    obtain rfl : a = b := first.unique first'
    exact ⟨new', fun names timely inside => new (part names timely inside)⟩
  · rintro ⟨new', undefined⟩
    obtain ⟨known, visits, knows⟩ := exists_visit r first
    refine ⟨task, known, defined, site, read, visits, fun inside => ?_, new'⟩
    obtain ⟨names, timely, inside'⟩ := (knows _).mp inside
    exact undefined names timely inside'

/-- What is reported is undefined on some route to the task, and what is undefined on all routes is
reported; names that the clause of the site has published before are not. -/
theorem reported_between (defined : p.tasks.get? t = some task) (site : task.HasSite s earlier)
    (read : v ∈ r.variableRefs s.text) :
    (Reported r p t s earlier v →
      v.name ∉ earlier ∧ ∃ a names, p.Route a t names ∧ v.name ∉ names) ∧
    ((∃ a names, p.Route a t names) → (∀ a names, p.Route a t names → v.name ∉ names) →
      v.name ∉ earlier → Reported r p t s earlier v) ∧
    ∀ d, d ∈ problems r p ↔ d ∈ (bind r [] (p.inputs ++ p.vars)).1 ∨
      (∃ t s earlier v, Reported r p t s earlier v ∧ problem s v = d) ∨
      d ∈ (bind r (ending r p).all p.outputs).1 := by
  refine ⟨fun reported => ?_, fun reachable undefined new => ?_, fun d => mem_problems_iff⟩
  · obtain ⟨_, known, _, _, _, visits, new, new'⟩ := reported
    obtain ⟨a, first, part⟩ := subset_of_visits visits
    obtain ⟨names, timely⟩ := first.exists_inTime
    obtain ⟨b, route⟩ := timely.on_route
    exact ⟨new', b, names, route, fun inside => new (part names timely inside)⟩
  · obtain ⟨a, first⟩ := Plan.exists_first reachable
    refine (reported_iff defined site read first).mpr ⟨new, fun names timely => ?_⟩
    obtain ⟨b, route⟩ := timely.on_route
    exact undefined b names route

def percentOnly : Registry :=
  .ofList [Delimited.percent.dialect]

/-- A task that reads a variable in its input. -/
def reader (join : Option Join) (next : List Definition.Clause) : Definition.Task where
  input := .ofList [("v", .string "<% ctx(x) %>")]
  join := join
  next := next

/-- The clause that publishes the variable and leads to a task. -/
def publishing (destination : String) : Definition.Clause where
  publish := [⟨"x", some (.bool true)⟩]
  destinations := [destination]

/-- The place in a task where the variable is read. -/
def readAt (t : String) : Site :=
  ⟨Plan.taskPath t ++ ".input." ++ "v", taskSchema ++ ".properties.input", "<% ctx(x) %>"⟩

def readVariable : VariableRef :=
  ⟨"percent", "<% ctx(x) %>", "x"⟩

theorem variableRefs_readAt (t : String) :
    percentOnly.variableRefs (readAt t).text = [readVariable] := by
  show percentOnly.variableRefs "<% ctx(x) %>" = [readVariable]
  cbv

theorem readVariable_mem (t : String) :
    readVariable ∈ percentOnly.variableRefs (readAt t).text := by
  rw [variableRefs_readAt]
  exact List.mem_singleton_self _

theorem readAt_mem (t : String) (join : Option Join) (next : List Definition.Clause) :
    readAt t ∈ (Plan.Task.ofDefinition t (reader join next)).sites := by
  have sites : (Plan.Task.ofDefinition t (reader join next)).sites = [readAt t] := rfl
  rw [sites]
  exact List.mem_singleton_self _

/-- A loop reads what is published nowhere. -/
def strayRead : Definition where
  tasks := .ofList
    [("a", { next := [{ destinations := ["t"] }] }),
     ("t", reader none [{ destinations := ["t"] }])]

theorem strayRead_reported :
    (∃ a names, (Plan.ofDefinition strayRead).Route a "t" names) ∧
      Reported percentOnly (.ofDefinition strayRead) "t" (readAt "t") [] readVariable := by
  have nothing : (Plan.ofDefinition strayRead).declared ++
      published (.ofDefinition strayRead) = [] := by
    cbv
  have reachable : ∃ a names, (Plan.ofDefinition strayRead).Route a "t" names :=
    ⟨_, _, .follow (.start (t := "a") (i := 0) (by cbv)) (i := 0) (by cbv)⟩
  have defined : (Plan.ofDefinition strayRead).tasks.get? "t" =
      some (.ofDefinition "t" (reader none [{ destinations := ["t"] }])) := rfl
  refine ⟨reachable, (reported_between defined (.body (readAt_mem _ _ _)) (readVariable_mem _)).2.1
    reachable (fun a names route inside => ?_) List.not_mem_nil⟩
  have part := subset_of_route route
  rw [nothing] at part
  exact List.not_mem_nil (part inside)

/-- At a join, a variable is reported just if no route that is in time defines it; the routes with
the fewest transitions always are. The problems are no others than those that are reported, so where
the join has the path of the site for itself, the problem is found just if no route in time defines the
variable; this is so in every definition whose shape has no problems. -/
theorem reported_at_join_iff (defined : p.tasks.get? t = some task) (join : p.isJoin t = true)
    (reachable : ∃ a names, p.Route a t names) (body : s ∈ task.sites)
    (read : v ∈ r.variableRefs s.text) :
    (Reported r p t s [] v ↔ ∀ a names, p.InTime a t names → v.name ∉ names) ∧
    (∀ a names, p.Route a t names → (∀ b names', p.Route b t names' → a.depth ≤ b.depth) →
      v.name ∈ names → ¬Reported r p t s [] v) ∧
    (∀ d, d ∈ problems r p ↔ d ∈ (bind r [] (p.inputs ++ p.vars)).1 ∨
      (∃ t s earlier v, Reported r p t s earlier v ∧ problem s v = d) ∨
      d ∈ (bind r (ending r p).all p.outputs).1) ∧
    (p.OwnsPath t s.path →
      (problem s v ∈ problems r p ↔ ∀ a names, p.InTime a t names → v.name ∉ names) ∧
      ∀ a names, p.Route a t names → (∀ b names', p.Route b t names' → a.depth ≤ b.depth) →
        v.name ∈ names → problem s v ∉ problems r p) ∧
    ∀ d, p = .ofDefinition d → Shape.problems d = [] → p.OwnsPath t s.path := by
  obtain ⟨a, first⟩ := Plan.exists_first reachable
  have verdict : Reported r p t s [] v ↔ ∀ a names, p.InTime a t names → v.name ∉ names := by
    rw [reported_iff defined (.body body) read first]
    constructor
    · rintro ⟨_, undefined⟩ b names timely
      obtain rfl : a = b := first.unique (timely.isFirst join)
      exact undefined names timely
    · exact fun undefined => ⟨List.not_mem_nil, fun names timely => undefined a names timely⟩
  have silent : ∀ b names, p.Route b t names → (∀ c names', p.Route c t names' → b.depth ≤ c.depth) →
      v.name ∈ names → ¬Reported r p t s [] v := by
    intro b names route shortest inside reported
    obtain ⟨c, _, timely⟩ := Plan.inTime_of_shortest route shortest
    exact verdict.mp reported c names timely inside
  refine ⟨verdict, silent, fun d => mem_problems_iff, fun owns => ?_, ?_⟩
  · rw [problem_mem_problems_iff defined body read owns]
    exact ⟨verdict, silent⟩
  · rintro d rfl clean
    exact Plan.ownsPath_of_clean clean defined body

/-- A join reads what one of its two branches publishes, and these are equally long. -/
def evenJoin : Definition where
  tasks := .ofList
    [("a", { next := [publishing "j"] }),
     ("b", { next := [{ destinations := ["j"] }] }),
     ("j", reader (some .all) [])]

theorem evenJoin_not_reported :
    (Plan.ofDefinition evenJoin).isJoin "j" = true ∧
      (Plan.ofDefinition evenJoin).OwnsPath "j" (readAt "j").path ∧
      (∃ a names, (Plan.ofDefinition evenJoin).Route a "j" names ∧ readVariable.name ∉ names) ∧
      problem (readAt "j") readVariable ∉ problems percentOnly (.ofDefinition evenJoin) := by
  have join : (Plan.ofDefinition evenJoin).isJoin "j" = true := rfl
  have defined : (Plan.ofDefinition evenJoin).tasks.get? "j" =
      some (.ofDefinition "j" (reader (some .all) [])) := rfl
  have route : (Plan.ofDefinition evenJoin).Route ((Address.root.way 0).way 0) "j" ["x"] :=
    .follow (.start (t := "a") (by cbv)) (by cbv)
  have starts : (Plan.ofDefinition evenJoin).starts = ["a", "b"] := by
    cbv
  have shortest : ∀ b names, (Plan.ofDefinition evenJoin).Route b "j" names →
      ((Address.root.way 0).way 0).depth ≤ b.depth := by
    intro b names other
    cases other with
    | start first =>
      have inside := List.mem_of_getElem? first
      rw [starts] at inside
      exact absurd inside (by decide)
    | follow before _ => exact Nat.succ_le_succ before.depth_pos
  have other : (Plan.ofDefinition evenJoin).Route ((Address.root.way 1).way 0) "j" [] :=
    .follow (.start (t := "b") (by cbv)) (by cbv)
  obtain ⟨_, _, _, found, owned⟩ := reported_at_join_iff defined join ⟨_, _, route⟩
    (readAt_mem "j" _ _) (readVariable_mem "j")
  have owns := owned evenJoin rfl (by cbv)
  exact ⟨join, owns, ⟨_, _, other, List.not_mem_nil⟩, (found owns).2 _ _ route shortest (by decide)⟩

/-- A join reads what the longer one of its two branches publishes. -/
def hastyJoin : Definition where
  tasks := .ofList
    [("a", { next := [{ destinations := ["j", "b"] }] }),
     ("b", { next := [publishing "j"] }),
     ("j", reader (some .all) [])]

/-- There is no cycle, and a route to the join publishes the variable, which is reported all the
same. -/
theorem hastyJoin_reported :
    ((Plan.ofDefinition hastyJoin).tasks.names.all fun t =>
        !(Plan.ofDefinition hastyJoin).inCycle t) = true ∧
      (Plan.ofDefinition hastyJoin).isJoin "j" = true ∧
      (∃ task, (Plan.ofDefinition hastyJoin).tasks.get? "j" = some task ∧ readAt "j" ∈ task.sites) ∧
      (∃ a names, (Plan.ofDefinition hastyJoin).Route a "j" names ∧ readVariable.name ∈ names) ∧
      problems percentOnly (.ofDefinition hastyJoin) = [problem (readAt "j") readVariable] := by
  have start : (Plan.ofDefinition hastyJoin).starts[0]? = some "a" := by
    cbv
  have toB : ((Plan.ofDefinition hastyJoin).exits "a")[1]? = some ("b", []) := by
    cbv
  have toJoin : ((Plan.ofDefinition hastyJoin).exits "b")[0]? = some ("j", ["x"]) := by
    cbv
  have published : readVariable.name ∈ (Plan.ofDefinition hastyJoin).declared ++ [] ++ ["x"] :=
    List.mem_append_right _ (List.mem_singleton_self _)
  refine ⟨by cbv, rfl, ⟨_, rfl, readAt_mem "j" _ _⟩, ?_, by cbv⟩
  exact ⟨_, _, .follow (.follow (.start start) toB) toJoin, published⟩

/-- Without joins, a variable is reported just if the first route to the task does not define it. The
problems are no others than those that are reported, so where the task has the path of the site for
itself, the problem is found just if the first route does not define the variable; this is so in every
definition whose shape has no problems. -/
theorem reported_iff_of_first_route (plain : ∀ t, p.isJoin t = false)
    (defined : p.tasks.get? t = some task) (body : s ∈ task.sites)
    (read : v ∈ r.variableRefs s.text) (route : p.Route a t names)
    (first : ∀ b names', p.Route b t names' → a ≤ b) :
    (Reported r p t s [] v ↔ v.name ∉ names) ∧
    (∀ d, d ∈ problems r p ↔ d ∈ (bind r [] (p.inputs ++ p.vars)).1 ∨
      (∃ t s earlier v, Reported r p t s earlier v ∧ problem s v = d) ∨
      d ∈ (bind r (ending r p).all p.outputs).1) ∧
    (v.name ∉ names → problem s v ∈ problems r p) ∧
    (p.OwnsPath t s.path → (problem s v ∈ problems r p ↔ v.name ∉ names)) ∧
    ∀ d, p = .ofDefinition d → Shape.problems d = [] → p.OwnsPath t s.path := by
  have verdict : Reported r p t s [] v ↔ v.name ∉ names := by
    rw [reported_iff defined (.body body) read ⟨⟨names, route⟩, first⟩]
    constructor
    · exact fun ⟨_, undefined⟩ => undefined names ((Plan.inTime_iff_route plain).mpr route)
    · refine fun undefined => ⟨List.not_mem_nil, fun names' timely => ?_⟩
      obtain ⟨_, rfl⟩ := route.unique ((Plan.inTime_iff_route plain).mp timely)
      exact undefined
  refine ⟨verdict, fun d => mem_problems_iff, fun undefined => (verdict.mpr undefined).mem_problems,
    fun owns => (problem_mem_problems_iff defined body read owns).trans verdict, ?_⟩
  rintro d rfl clean
  exact Plan.ownsPath_of_clean clean defined body

/-- A task reads what one of the two tasks before it publishes. -/
def splitRead (publisher other : String) : Definition where
  tasks := .ofList
    [(publisher, { next := [publishing "t"] }),
     (other, { next := [{ destinations := ["t"] }] }),
     ("t", reader none [])]

/-- The first route to the reader is the one through the task that comes first. -/
theorem splitRead_first {publisher other : String} (starts :
    (Plan.ofDefinition (splitRead publisher other)).starts = ["a", "b"]) (b : Address)
    (names : List String) (route : (Plan.ofDefinition (splitRead publisher other)).Route b "t" names) :
    (Address.root.way 0).way 0 ≤ b := by
  cases route with
  | start start =>
    have inside := List.mem_of_getElem? start
    rw [starts] at inside
    exact absurd inside (by decide)
  | follow before _ =>
    refine Address.way_zero_le ?_ _
    cases before with
    | start _ => exact Address.way_zero_le (le_refl _) _
    | follow _ _ => exact Address.way_zero_le (Address.root_le _) _

/-- What is found is decided by the task that comes first, the publisher or the other one. -/
theorem splitRead_reported :
    (∀ t, (Plan.ofDefinition (splitRead "b" "a")).isJoin t = false) ∧
      (Plan.ofDefinition (splitRead "b" "a")).OwnsPath "t" (readAt "t").path ∧
      problem (readAt "t") readVariable ∈
        problems percentOnly (.ofDefinition (splitRead "b" "a")) ∧
      problem (readAt "t") readVariable ∉
        problems percentOnly (.ofDefinition (splitRead "a" "b")) := by
  have plain : ∀ t, (Plan.ofDefinition (splitRead "b" "a")).isJoin t = false :=
    Plan.isJoin_eq_false rfl
  have defined : (Plan.ofDefinition (splitRead "b" "a")).tasks.get? "t" =
      some (.ofDefinition "t" (reader none [])) := rfl
  have route : (Plan.ofDefinition (splitRead "b" "a")).Route ((Address.root.way 0).way 0) "t" [] :=
    .follow (.start (t := "a") (by cbv)) (by cbv)
  have route' : (Plan.ofDefinition (splitRead "a" "b")).Route ((Address.root.way 0).way 0) "t" ["x"] :=
    .follow (.start (t := "a") (by cbv)) (by cbv)
  obtain ⟨_, _, _, found, owned⟩ := reported_iff_of_first_route plain defined (readAt_mem "t" _ _)
    (readVariable_mem "t") route (splitRead_first (by cbv))
  obtain ⟨_, _, _, found', owned'⟩ := reported_iff_of_first_route (Plan.isJoin_eq_false rfl) rfl
    (readAt_mem "t" _ _) (readVariable_mem "t") route' (splitRead_first (by cbv))
  have owns := owned (splitRead "b" "a") rfl (by cbv)
  have owns' := owned' (splitRead "a" "b") rfl (by cbv)
  exact ⟨plain, owns, (found owns).mpr List.not_mem_nil, fun inside =>
    (found' owns').mp inside (by decide)⟩

/-- The publisher comes first, and what the other route leaves undefined is not reported. -/
theorem splitRead_not_reported :
    (∀ t, (Plan.ofDefinition (splitRead "a" "b")).isJoin t = false) ∧
      (∃ task, (Plan.ofDefinition (splitRead "a" "b")).tasks.get? "t" = some task ∧
        readAt "t" ∈ task.sites) ∧
      readVariable ∈ percentOnly.variableRefs (readAt "t").text ∧
      (∃ a names, (Plan.ofDefinition (splitRead "a" "b")).Route a "t" names ∧
        readVariable.name ∉ names) ∧
      problems percentOnly (.ofDefinition (splitRead "a" "b")) = [] := by
  have start : (Plan.ofDefinition (splitRead "a" "b")).starts[1]? = some "b" := by
    cbv
  have way : ((Plan.ofDefinition (splitRead "a" "b")).exits "b")[0]? = some ("t", []) := by
    cbv
  refine ⟨Plan.isJoin_eq_false rfl, ⟨_, rfl, readAt_mem "t" _ _⟩, readVariable_mem "t", ?_, by cbv⟩
  exact ⟨_, _, .follow (.start start) way, List.not_mem_nil⟩

end Workflow.Inspection.Vocabulary

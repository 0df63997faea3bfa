import Mathlib.Algebra.BigOperators.Ring.List
import Mathlib.Algebra.Order.BigOperators.Group.List
import Workflow.Proofs.Inspection.Vocabulary.Turns

/-!
Whole runs. The analysis always comes to an end (`exists_final`). Every task with a route is visited,
at first with exactly the names on the routes that are in time for its first turn (`exists_visit`),
and it knows these names at all its visits (`subset_of_visits`).
-/

namespace Workflow.Inspection.Vocabulary

variable {r : Registry} {p : Plan} {s s' : State} {past turns rest : List Turn} {x y : Turn}
  {a b : Address} {t d n : String} {known names : List String} {i : Nat}

/-- In the course of the analysis, the task is worked through with these names known to it. -/
def Visits (r : Registry) (p : Plan) (t : String) (known : List String) : Prop :=
  ∃ s brought queue, Runs (step p r) (outset r p) s ∧ s.queue = (t, brought) :: queue ∧
    ¬s.Skips t brought ∧ s.learned t brought = known

section Start

def opening (p : Plan) : List Turn :=
  p.starts.mapIdx fun i t => ⟨.way .root i, t, extend [] p.declared⟩

theorem mem_opening_iff :
    y ∈ opening p ↔ ∃ i t, p.starts[i]? = some t ∧ y = ⟨.way .root i, t, extend [] p.declared⟩ := by
  unfold opening
  rw [List.mem_mapIdx]
  constructor
  · rintro ⟨i, bound, rfl⟩
    exact ⟨i, p.starts[i], List.getElem?_eq_getElem bound, rfl⟩
  · rintro ⟨i, t, first, rfl⟩
    obtain ⟨bound, rfl⟩ := List.getElem?_eq_some_iff.mp first
    exact ⟨i, bound, rfl⟩

theorem walked_outset (r : Registry) (p : Plan) : Walked r p (outset r p) [] (opening p) := by
  have declared : (bind r [] (p.inputs ++ p.vars)).2 = extend [] p.declared := bind_snd _ _ _
  have nothing : ∀ t, (Table.empty : Table (List String)).get? t = none := fun _ => rfl
  have entry : ∀ y ∈ opening p, ∃ i, p.starts[i]? = some y.task ∧ y.address = .way .root i ∧
      y.names = extend [] p.declared := by
    intro y inside
    obtain ⟨i, t, first, rfl⟩ := mem_opening_iff.mp inside
    exact ⟨i, first, rfl, rfl⟩
  exact
    { queue := by
        show p.starts.map (fun name => (name, (bind r [] (p.inputs ++ p.vars)).2)) = _
        rw [declared]
        refine List.ext_getElem? fun i => ?_
        simp only [opening, List.getElem?_map, List.getElem?_mapIdx, Option.map_map]
        rfl
      ordered := by
        rw [List.nil_append, List.pairwise_iff_getElem]
        intro i j inside inside' less
        simp only [opening, List.getElem_mapIdx]
        refine ⟨Address.way_lt_way_iff.mpr (.inr ⟨rfl, less⟩), fun _ same => ?_⟩
        exact Nat.ne_of_lt less (p.starts_nodup.getElem_inj_iff.mp same)
      origin := fun y inside =>
        have ⟨i, first, place, _⟩ := entry y inside
        .inl ⟨i, first, place⟩
      learned := nofun
      brought := by
        intro y inside _ n brings
        obtain ⟨i, first, place, names⟩ := entry y inside
        rw [names, mem_extend] at brings
        rw [place]
        exact ⟨_, le_refl _, _, .start first, brings.resolve_left List.not_mem_nil⟩
      started := by
        intro i t first
        refine ⟨_, mem_opening_iff.mpr ⟨i, t, first, rfl⟩, rfl, le_refl _, fun n inside => ?_⟩
        exact mem_extend.mpr (.inr inside)
      followed := nofun
      joined := nofun
      entered := by
        intro d
        simp [outset, State.start, Table.contains, nothing]
      held := by
        intro d n
        simp [outset, State.start, State.Holds, nothing]
      known := fun t names knows => nomatch (nothing t).symm.trans knows
      kept := nofun
      grows := .nil
      unique := nofun
      found := by
        intro d
        show d ∈ record [] (bind r [] (p.inputs ++ p.vars)).1 ↔ _
        rw [mem_record_iff]
        simp }

theorem Walked.head_of_takes (walked : Walked r p s past turns) (taken : Takes (step p r) s s') :
    ∃ y rest, turns = y :: rest ∧
      visit p r { s with queue := rest.map Turn.entry } y.task y.names = s' := by
  unfold Takes step at taken
  rw [walked.queue] at taken
  cases turns with
  | nil => cases taken
  | cons y rest =>
    cases taken
    exact ⟨y, rest, rfl, rfl⟩

/-- One step: the turn at the head is skipped, or it is over and sends others. -/
theorem Walked.takes (walked : Walked r p s past turns) (taken : Takes (step p r) s s') :
    ∃ y rest, turns = y :: rest ∧ (s.Skips y.task y.names ∧ Walked r p s' past rest ∨
      ¬s.Skips y.task y.names ∧ ∃ sent, Walked r p s' (past ++ [y.after s]) (rest ++ sent)) := by
  obtain ⟨y, rest, rfl, rfl⟩ := walked.head_of_takes taken
  refine ⟨y, rest, rfl, ?_⟩
  by_cases skips : s.Skips y.task y.names
  · rw [visit_skips skips]
    exact .inl ⟨skips, walked.skip skips⟩
  · obtain ⟨sent, after, _⟩ := walked.work skips
    exact .inr ⟨skips, sent, after⟩

theorem queue_eq_nil_of_step (done : step p r s = .ok none) : s.queue = [] := by
  unfold step at done
  cases next : s.queue with
  | nil => rfl
  | cons entry rest => simp [next] at done

theorem step_of_nil (done : s.queue = []) : step p r s = .ok none := by
  unfold step
  rw [done]

theorem Walked.turns_eq_nil (walked : Walked r p s past turns) (done : step p r s = .ok none) :
    turns = [] :=
  List.map_eq_nil_iff.mp (walked.queue.symm.trans (queue_eq_nil_of_step done))

/-- Turns that are over stay so. -/
theorem Walked.runs (walked : Walked r p s past turns) (run : Runs (step p r) s s') :
    ∃ past' turns', past ⊆ past' ∧ Walked r p s' past' turns' := by
  induction run with
  | refl => exact ⟨past, turns, List.Subset.refl past, walked⟩
  | tail _ taken ih =>
    obtain ⟨past', turns', part, walked'⟩ := ih
    obtain ⟨y, rest, _, ⟨_, after⟩ | ⟨_, sent, after⟩⟩ := walked'.takes taken
    · exact ⟨past', rest, part, after⟩
    · exact ⟨_, _, fun _ passed => List.mem_append_left _ (part passed), after⟩

/-- The turns that are over are the visits. -/
theorem exists_walked (run : Runs (step p r) (outset r p) s) :
    ∃ past turns, Walked r p s past turns ∧ ∀ x ∈ past, Visits r p x.task x.names := by
  induction run with
  | refl => exact ⟨[], opening p, walked_outset r p, nofun⟩
  | tail run taken ih =>
    obtain ⟨past, turns, walked, visits⟩ := ih
    obtain ⟨y, rest, rfl, ⟨_, after⟩ | ⟨works, sent, after⟩⟩ := walked.takes taken
    · exact ⟨past, rest, after, visits⟩
    · refine ⟨_, _, after, fun x passed => ?_⟩
      rcases mem_concat_iff.mp passed with before | rfl
      · exact visits x before
      · exact ⟨_, y.names, _, run, walked.queue, works, rfl⟩

/-- A visit is a turn that is over afterwards, and the last one. -/
theorem Visits.exists_turn (visits : Visits r p t known) :
    ∃ s past turns x, Runs (step p r) (outset r p) s ∧ Walked r p s (past ++ [x]) turns ∧
      x.task = t ∧ x.names = known := by
  obtain ⟨s, brought, queue, run, next, works, rfl⟩ := visits
  obtain ⟨past, turns, walked, _⟩ := exists_walked run
  cases turns with
  | nil => cases next.symm.trans walked.queue
  | cons y rest =>
    cases next.symm.trans walked.queue
    obtain ⟨sent, after, _⟩ := walked.work works
    have taken : Takes (step p r) s
        (visit p r { s with queue := rest.map Turn.entry } y.task y.names) := by
      unfold Takes step
      rw [next]
    exact ⟨_, past, _, y.after s, run.tail taken, after, rfl, rfl⟩

end Start

section Knowledge

/-- All that is on a route in time is known, or still to come. -/
theorem Walked.exists_learned (walked : Walked r p s past turns) (timely : p.InTime b t names)
    (inside : n ∈ names) :
    (∃ y ∈ turns, y.address ≤ b) ∨ ∃ x ∈ past, x.task = t ∧ x.address ≤ b ∧ n ∈ x.names := by
  have some_turn : ∀ {t b c names}, Delivered past turns t b names → b ≤ c → n ∈ names →
      (∃ y ∈ turns, y.address ≤ c) ∨ ∃ x ∈ past, x.task = t ∧ x.address ≤ c ∧ n ∈ x.names :=
    fun delivered later inside => (delivered.waits_or_passed later).imp_right
      fun ⟨x, passed, task, place, brings⟩ => ⟨x, passed, task, place, brings inside⟩
  -- What comes to the end of the last way is known before it, or published on it.
  have known : ∀ {a t names published}, p.InTime a t names → n ∈ names ++ published →
      (n ∈ names → (∃ y ∈ turns, y.address ≤ a) ∨
        ∃ x ∈ past, x.task = t ∧ x.address ≤ a ∧ n ∈ x.names) →
      (∃ y ∈ turns, y.address ≤ a) ∨
        ∃ x ∈ past, x.task = t ∧ x.address ≤ a ∧ n ∈ x.names ++ published := by
    intro a t names published timely inside ih
    rcases List.mem_append.mp inside with before | fresh
    · refine (ih before).imp_right fun ⟨x, passed, task, place, knows⟩ => ?_
      exact ⟨x, passed, task, place, List.mem_append_left _ knows⟩
    · obtain ⟨_, route⟩ := timely.exists_route
      refine (walked.reached route).imp_right fun ⟨x, passed, task, place⟩ => ?_
      exact ⟨x, passed, task, place, List.mem_append_right _ fresh⟩
  induction timely with
  | start first => exact some_turn (walked.started _ _ first) (le_refl _) inside
  | @follow a t d names published i before exit plain ih =>
    rcases known before inside ih with ⟨y, waits, place⟩ | ⟨x, passed, rfl, place, knows⟩
    · exact .inl ⟨y, waits, place.trans (le_of_lt (Address.lt_way a i))⟩
    · have delivered := walked.followed x passed i d published exit plain
      exact some_turn delivered (Address.way_le_way place i) knows
  | @join a b t d names published i before exit join first early ih =>
    obtain ⟨_, route⟩ := first.1
    rcases known before inside ih with ⟨y, waits, place⟩ | ⟨x, passed, rfl, place, knows⟩
    · exact .inl ⟨y, waits, place.trans (le_of_lt early)⟩
    · refine (walked.reached route).imp_right fun ⟨z, passed', task, place'⟩ => ?_
      obtain ⟨w, present, task', _, brings⟩ := walked.joined x passed i d published exit join
      obtain rfl : z = w := walked.eq_of_join (List.mem_append_left _ passed') present
        (task ▸ join) (task.trans task'.symm)
      obtain ⟨names', route'⟩ := walked.exists_route (List.mem_append_left _ passed')
      have behind : b ≤ z.address := first.2 _ names' (task ▸ route')
      exact ⟨z, passed', task, place',
        brings passed' ((place.trans_lt early).trans_le behind) knows⟩

/-- At every visit, what is on the routes that are in time for the first turn is known. -/
theorem subset_of_visits (visits : Visits r p t known) :
    ∃ a, p.IsFirst t a ∧ ∀ names, p.InTime a t names → names ⊆ known := by
  obtain ⟨s, past, turns, x, _, walked, rfl, rfl⟩ := visits.exists_turn
  have passed : x ∈ past ++ [x] := List.mem_concat_self
  obtain ⟨names, route⟩ := walked.exists_route (List.mem_append_left _ passed)
  obtain ⟨a, first⟩ := Plan.exists_first ⟨_, names, route⟩
  refine ⟨a, first, fun names' timely n inside => ?_⟩
  rcases walked.exists_learned timely inside with ⟨y, waits, place⟩ | ⟨z, passed', task, _, knows⟩
  · have behind := walked.lt_of_passed passed waits
    exact absurd (place.trans (first.2 _ names route)) (not_le.mpr behind)
  · rcases mem_concat_iff.mp passed' with before | rfl
    · exact (pairwise_concat_iff.mp walked.grows).2 z before task knows
    · exact knows

end Knowledge

section Termination

/-- How many names can be known. -/
def bound (p : Plan) : Nat :=
  (p.inputs ++ p.vars).length + (published p).length

/-- How often a task can be worked through yet. -/
def room (p : Plan) (s : State) (t : String) : Nat :=
  match s.known.get? t with
  | none => bound p + 1
  | some known => bound p - known.length

/-- How many turns are to come at most. -/
def remaining (p : Plan) (s : State) : Nat :=
  s.queue.length + (p.tasks.names.map fun t => room p s t * (p.exits t).length).sum

theorem published_of_exit (exit : (p.exits t)[i]? = some (d, names)) : names ⊆ published p := by
  obtain ⟨task, found, c, clause, _, _, rfl⟩ :=
    Plan.mem_exits_iff.mp (List.mem_of_getElem? exit)
  intro n inside
  have present := Table.mem_values_of_get? found
  exact List.mem_flatMap.mpr ⟨task, present, List.mem_flatMap.mpr ⟨c, clause, inside⟩⟩

/-- On no route are names known that the plan neither declares nor publishes. -/
theorem subset_of_route (route : p.Route a t names) : names ⊆ p.declared ++ published p := by
  induction route with
  | start _ => exact List.subset_append_left _ _
  | follow _ exit ih =>
    have fresh := List.Subset.trans (published_of_exit exit) (List.subset_append_right p.declared _)
    exact List.append_subset.mpr ⟨ih, fresh⟩

/-- A task knows no names but those that are declared or published. -/
theorem Walked.names_subset (walked : Walked r p s past turns) (passed : x ∈ past) :
    x.names ⊆ p.declared ++ published p := by
  intro n inside
  obtain ⟨_, _, _, timely, inside'⟩ := walked.learned x passed n inside
  obtain ⟨_, route⟩ := timely.on_route
  exact subset_of_route route inside'

theorem Walked.length_le (walked : Walked r p s past turns) (passed : x ∈ past) :
    x.names.length ≤ bound p := by
  have shorter := ((walked.unique x passed).subperm (walked.names_subset passed)).length_le
  simpa [bound, Plan.declared, Nat.add_assoc] using shorter

private theorem sum_map_add_le {α : Type} {l : List α} {f f' : α → Nat} {a : α} {k : Nat}
    (inside : a ∈ l) (less : f' a + k ≤ f a) (same : ∀ b, f' b ≤ f b) :
    (l.map f').sum + k ≤ (l.map f).sum := by
  induction l with
  | nil => cases inside
  | cons b l ih =>
    rw [List.map_cons, List.map_cons, List.sum_cons, List.sum_cons]
    rcases List.mem_cons.mp inside with rfl | later
    · have rest : (l.map f').sum ≤ (l.map f).sum := List.sum_le_sum fun b _ => same b
      omega
    · have here := same b
      have rest := ih later
      omega

theorem Walked.defined (walked : Walked r p s past turns) (inside : y ∈ past ++ turns) :
    y.task ∈ p.tasks.names := by
  rcases walked.origin y inside with ⟨i, first, _⟩ | ⟨x, _, i, names, exit, _⟩
  · exact (Plan.mem_starts_iff.mp (List.mem_of_getElem? first)).1
  · have on := Plan.leadsOn_of_mem_exits _ (List.mem_of_getElem? exit)
    rw [Plan.leadsOn, Bool.and_eq_true] at on
    exact Table.contains_iff.mp on.2

/-- A task that is worked through again learns a name. -/
theorem length_lt_after (works : ¬s.Skips y.task y.names) (before : s.known.get? y.task = some names) :
    names.length < (y.after s).names.length := by
  have new : ∃ n ∈ s.incoming y.task y.names, n ∉ names := by
    by_contra all
    simp only [not_exists, not_and, not_not] at all
    exact works ⟨names, before, all⟩
  obtain ⟨n, brought, new⟩ := new
  have same : (y.after s).names = extend names (s.incoming y.task y.names) := by
    simp [Turn.after, State.learned, before]
  rw [same]
  exact length_lt_extend brought new

/-- A task that is worked through has less room then; it learns a name, or it is its first visit. -/
theorem room_insert_lt (works : ¬s.Skips y.task y.names)
    (most : (y.after s).names.length ≤ bound p)
    (known : s'.known = s.known.insert y.task (y.after s).names) :
    room p s' y.task < room p s y.task := by
  unfold room
  rw [known, Table.get?_insert, if_pos rfl]
  cases before : s.known.get? y.task with
  | none =>
    dsimp only
    omega
  | some names =>
    have longer := length_lt_after works before
    dsimp only
    omega

/-- After each step fewer turns are to come: a task that is worked through again knows more. -/
theorem Walked.remaining_lt (walked : Walked r p s past turns) (taken : Takes (step p r) s s') :
    remaining p s' < remaining p s := by
  obtain ⟨y, rest, rfl, visited⟩ := walked.head_of_takes taken
  have length : s.queue.length = rest.length + 1 := by
    rw [walked.queue]
    simp
  by_cases skips : s.Skips y.task y.names
  · rw [← visited, visit_skips skips]
    unfold remaining
    rw [length]
    simp [room]
  · obtain ⟨sent, after, few, known⟩ := walked.work skips
    rw [visited] at after known
    have most := after.length_le (List.mem_concat_self)
    have queue : s'.queue.length = rest.length + sent.length := by
      rw [after.queue]
      simp
    have less := room_insert_lt skips most known
    have others : ∀ u, room p s' u * (p.exits u).length ≤ room p s u * (p.exits u).length := by
      intro u
      refine Nat.mul_le_mul_right _ ?_
      by_cases same : u = y.task
      · subst same
        exact Nat.le_of_lt less
      · unfold room
        rw [known, Table.get?_insert, if_neg same]
    have own : room p s' y.task * (p.exits y.task).length + (p.exits y.task).length ≤
        room p s y.task * (p.exits y.task).length := by
      have product := Nat.mul_le_mul_right (p.exits y.task).length less
      rwa [Nat.succ_mul] at product
    have defined := walked.defined (List.mem_append_right past List.mem_cons_self)
    have total := sum_map_add_le defined own others
    unfold remaining
    omega

theorem length_exits_le (p : Plan) :
    (p.tasks.names.map fun t => (p.exits t).length).sum ≤ (destinations p).length := by
  have parts : (destinations p).length =
      (p.tasks.entries.map fun e => (e.2.clauses.flatMap Plan.Clause.destinations).length).sum := by
    simp [destinations, Table.values, List.length_flatMap, List.map_map, Function.comp_def]
  rw [parts, Table.names, List.map_map]
  refine List.sum_le_sum fun e inside => ?_
  have found : p.tasks.get? e.1 = some e.2 := Table.get?_eq_some_iff.mpr inside
  simp only [Function.comp, Plan.exits, found, List.length_flatMap, List.length_map]
  exact List.sum_le_sum fun c _ => List.length_filter_le _ _

/-- The bound of steps is greater than the turns to come at the outset. -/
theorem remaining_outset_lt (r : Registry) (p : Plan) : remaining p (outset r p) < maxSteps p := by
  have starts : (outset r p).queue.length ≤ p.tasks.size := by
    show (p.starts.map _).length ≤ _
    rw [List.length_map, Plan.starts, List.length_mergeSort]
    exact (List.length_filter_le _ _).trans (by simp [Table.names, Table.size])
  have ways : (p.tasks.names.map fun t => room p (outset r p) t * (p.exits t).length).sum ≤
      (bound p + 1) * (destinations p).length := by
    have same : ∀ t, room p (outset r p) t = bound p + 1 := fun _ => rfl
    simp only [same, List.sum_map_mul_left]
    exact Nat.mul_le_mul_left _ (length_exits_le p)
  have more : (bound p + 1) * (destinations p).length ≤
      (bound p + 2) * (destinations p).length := Nat.mul_le_mul_right _ (Nat.le_succ _)
  unfold remaining maxSteps
  dsimp only
  unfold bound at ways more
  omega

/-- The analysis comes to an end. -/
theorem exists_final (r : Registry) (p : Plan) :
    ∃ s, workOff (step p r) (maxSteps p) (outset r p) = some (.ok s) ∧
      Runs (step p r) (outset r p) s ∧ step p r s = .ok none := by
  have ends : (workOff (step p r) (maxSteps p) (outset r p)).isSome := by
    have preserved : ∀ s s', (∃ past turns, Walked r p s past turns) → Takes (step p r) s s' →
        ∃ past turns, Walked r p s' past turns := by
      rintro s s' ⟨past, turns, walked⟩ taken
      obtain ⟨past', turns', _, after⟩ := walked.runs (.single taken)
      exact ⟨past', turns', after⟩
    refine workOff_isSome (remaining p) preserved ?_ _ _ ⟨_, _, walked_outset r p⟩
      (remaining_outset_lt r p)
    rintro s s' ⟨past, turns, walked⟩ taken
    exact walked.remaining_lt taken
  rcases workOff_cases ends with final | ⟨e, _⟩
  · exact final
  · cases e

end Termination

/-- Every task with a route is visited, at first with just the names on the routes that are in time.
-/
theorem exists_visit (r : Registry) (first : p.IsFirst t a) :
    ∃ known, Visits r p t known ∧ ∀ n, n ∈ known ↔ ∃ names, p.InTime a t names ∧ n ∈ names := by
  obtain ⟨s, _, run, done⟩ := exists_final r p
  obtain ⟨past, turns, walked, visits⟩ := exists_walked run
  have finished : turns = [] := walked.turns_eq_nil done
  subst finished
  obtain ⟨_, route⟩ := first.1
  rcases walked.reached route with ⟨y, waits, _⟩ | ⟨x, passed, rfl, early⟩
  · cases waits
  · have settled : ∀ {b names}, p.Route b x.task names → b ≤ a → b = a := fun route early =>
      le_antisymm early (first.2 _ _ route)
    obtain ⟨names, own⟩ := walked.exists_route (List.mem_append_left [] passed)
    have place : x.address = a := settled own early
    refine ⟨x.names, visits x passed, fun n => ⟨fun knows => ?_, ?_⟩⟩
    · obtain ⟨b, before, names', timely, inside⟩ := walked.learned x passed n knows
      obtain ⟨_, route'⟩ := timely.exists_route
      obtain rfl : b = a := settled route' (place ▸ before)
      exact ⟨names', timely, inside⟩
    · rintro ⟨names', timely, inside⟩
      obtain ⟨b, first', known⟩ := subset_of_visits (visits x passed)
      obtain rfl : a = b := first.unique first'
      exact known names' timely inside

/-- In the end, a visit is one of the turns that are over. -/
theorem Visits.exists_passed (visits : Visits r p t known) (run : Runs (step p r) (outset r p) s)
    (done : step p r s = .ok none) :
    ∃ past turns, Walked r p s past turns ∧ ∃ x ∈ past, x.task = t ∧ x.names = known := by
  obtain ⟨s', past, turns, x, run', walked, task, names⟩ := visits.exists_turn
  obtain ⟨past', turns', part, final⟩ := walked.runs (run'.to_end run done)
  have passed : x ∈ past' := part (List.mem_concat_self)
  exact ⟨past', turns', final, x, passed, task, names⟩

end Workflow.Inspection.Vocabulary

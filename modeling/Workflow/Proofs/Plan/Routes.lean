import Workflow.Proofs.Addresses
import Workflow.Proofs.Plan.Network

/-!
Routes through a plan: how a task is come to from a start task, and the names that are published on
the way there. Routes are compared by their addresses, in the order of a breadth-first search. A
route is in time if no join on it has its turn before the route comes there. Main statements: every
task with a route has a first one (`exists_first`), the shortest routes are in time
(`inTime_of_shortest`), and without joins all routes are (`inTime_iff_route`).
-/

namespace Workflow.Plan

variable {p : Plan} {t u d : String} {a b : Address} {names names' published : List String}
  {i : Nat}

def declared (p : Plan) : List String :=
  (p.inputs ++ p.vars).map Binding.name

/-- Is the destination a task that is gone on to? -/
def leadsOn (p : Plan) (destination : String) : Bool :=
  !isReserved destination && p.tasks.contains destination

/-- The ways out of a task in order: where each leads, and the names that its clause publishes. -/
def exits (p : Plan) (t : String) : List (String × List String) :=
  match p.tasks.get? t with
  | none => []
  | some task =>
    task.clauses.flatMap fun c =>
      (c.destinations.filter p.leadsOn).map fun d => (d, c.publish.map Binding.name)

/-- A route from a start task, with its address and all names that are declared or published on it.
-/
inductive Route (p : Plan) : Address → String → List String → Prop where
  | start {i : Nat} {t : String} (first : p.starts[i]? = some t) :
      Route p (.way .root i) t p.declared
  | follow {a : Address} {t d : String} {names published : List String} {i : Nat}
      (before : Route p a t names) (exit : (p.exits t)[i]? = some (d, published)) :
      Route p (a.way i) d (names ++ published)

/-- The task has a route with this address, and none with an earlier one. -/
def IsFirst (p : Plan) (t : String) (a : Address) : Prop :=
  (∃ names, Route p a t names) ∧ ∀ b names, Route p b t names → a ≤ b

/-- A route that is in time: it comes to no join by a way out of a task whose turn is behind the
first turn of the join. The address is that of the turn of the task at the end; for a join, this is
its first turn. -/
inductive InTime (p : Plan) : Address → String → List String → Prop where
  | start {i : Nat} {t : String} (first : p.starts[i]? = some t) :
      InTime p (.way .root i) t p.declared
  | follow {a : Address} {t d : String} {names published : List String} {i : Nat}
      (before : InTime p a t names) (exit : (p.exits t)[i]? = some (d, published))
      (plain : p.isJoin d = false) : InTime p (a.way i) d (names ++ published)
  | join {a b : Address} {t d : String} {names published : List String} {i : Nat}
      (before : InTime p a t names) (exit : (p.exits t)[i]? = some (d, published))
      (join : p.isJoin d = true) (first : IsFirst p d b) (early : a < b) :
      InTime p b d (names ++ published)

/-- The ways out of a task lead, clause by clause, to destinations that are gone on to. -/
theorem mem_exits_iff :
    (d, published) ∈ p.exits t ↔ ∃ task, p.tasks.get? t = some task ∧ ∃ c ∈ task.clauses,
      d ∈ c.destinations ∧ p.leadsOn d = true ∧ c.publish.map Binding.name = published := by
  unfold exits
  cases p.tasks.get? t with
  | none => simp
  | some task =>
    simp only [List.mem_flatMap, List.mem_map, List.mem_filter, Prod.mk.injEq, Option.some.injEq]
    constructor
    · rintro ⟨c, clause, _, ⟨inside, on⟩, rfl, same⟩
      exact ⟨task, rfl, c, clause, inside, on, same⟩
    · rintro ⟨_, rfl, c, clause, inside, on, same⟩
      exact ⟨c, clause, d, ⟨inside, on⟩, rfl, same⟩

theorem leadsOn_of_mem_exits : ∀ e ∈ p.exits t, p.leadsOn e.1 = true := by
  intro e inside
  obtain ⟨_, _, _, _, _, on, _⟩ := mem_exits_iff.mp inside
  exact on

/-- No way leads to a start task. -/
theorem not_start_of_exit (exit : (p.exits t)[i]? = some (d, published)) : d ∉ p.starts := by
  obtain ⟨task, found, c, clause, inside, _⟩ := mem_exits_iff.mp (List.mem_of_getElem? exit)
  intro first
  exact (mem_starts_iff.mp first).2 t (mem_successors_iff.mpr ⟨task, found, c, clause, inside⟩)

/-- An address is that of one route. -/
theorem Route.unique (route : Route p a t names) (route' : Route p a u names') :
    t = u ∧ names = names' := by
  induction route generalizing u names' with
  | start first =>
    cases route' with
    | start first' =>
      rw [first] at first'
      exact ⟨Option.some.inj first', rfl⟩
    | follow before _ => cases before
  | follow before exit ih =>
    cases route' with
    | start _ => cases before
    | follow before' exit' =>
      obtain ⟨rfl, rfl⟩ := ih before'
      rw [exit] at exit'
      cases exit'
      exact ⟨rfl, rfl⟩

theorem Route.depth_pos (route : Route p a t names) : 0 < a.depth := by
  cases route with
  | start _ => exact Nat.succ_pos _
  | follow _ _ => exact Nat.succ_pos _

/-- Among the routes to a task there is a first. -/
theorem exists_first (route : ∃ a names, Route p a t names) : ∃ a, IsFirst p t a := by
  obtain ⟨a, found, least⟩ := Address.exists_first route
  exact ⟨a, found, fun b names other => least b ⟨names, other⟩⟩

theorem IsFirst.unique (first : IsFirst p t a) (first' : IsFirst p t b) : a = b := by
  obtain ⟨⟨names, route⟩, least⟩ := first
  obtain ⟨⟨names', route'⟩, least'⟩ := first'
  exact le_antisymm (least b names' route') (least' a names route)

theorem InTime.exists_route (timely : InTime p a t names) : ∃ names', Route p a t names' := by
  induction timely with
  | start first => exact ⟨_, .start first⟩
  | follow _ exit _ ih =>
    obtain ⟨_, route⟩ := ih
    exact ⟨_, .follow route exit⟩
  | join _ _ _ first _ _ => exact first.1

/-- What is on a route in time is on a route. -/
theorem InTime.on_route (timely : InTime p a t names) : ∃ b, Route p b t names := by
  induction timely with
  | start first => exact ⟨_, .start first⟩
  | follow _ exit _ ih =>
    obtain ⟨_, route⟩ := ih
    exact ⟨_, .follow route exit⟩
  | join _ exit _ _ _ ih =>
    obtain ⟨_, route⟩ := ih
    exact ⟨_, .follow route exit⟩

/-- To a start task, there is its own route only. -/
theorem isFirst_start (first : p.starts[i]? = some t) : IsFirst p t (.way .root i) := by
  refine ⟨⟨_, .start first⟩, fun b names other => ?_⟩
  cases other with
  | @start j _ first' =>
    obtain ⟨bound, same⟩ := List.getElem?_eq_some_iff.mp first
    obtain ⟨bound', same'⟩ := List.getElem?_eq_some_iff.mp first'
    obtain rfl : i = j := p.starts_nodup.getElem_inj_iff.mp (same.trans same'.symm)
    exact le_refl _
  | follow _ exit => exact absurd (List.mem_of_getElem? first) (not_start_of_exit exit)

/-- A route that is in time comes to a join at its first turn. -/
theorem InTime.isFirst (timely : InTime p a t names) (join : p.isJoin t = true) :
    IsFirst p t a := by
  cases timely with
  | start first => exact isFirst_start first
  | follow _ _ plain =>
    rw [plain] at join
    cases join
  | join _ _ _ first _ => exact first

/-- A task with a route is come to in time, and not later than by that route. -/
theorem exists_inTime (route : Route p a t names) : ∃ b ≤ a, ∃ names', InTime p b t names' := by
  -- The address gets earlier when a route is replaced by the first one to its end, or is cut short.
  induction a using Address.precedes_wf.induction generalizing t names with
  | _ a ih =>
    obtain ⟨first, ⟨_, shorter⟩, least⟩ := exists_first ⟨a, names, route⟩
    have behind := least a names route
    have isFirst : IsFirst p t first := ⟨⟨_, shorter⟩, least⟩
    cases shorter with
    | start start => exact ⟨_, behind, _, .start start⟩
    | @follow c _ _ _ _ i before exit =>
      obtain ⟨b, early, names', timely⟩ := ih c ((Address.lt_way c i).trans_le behind) before
      cases kind : p.isJoin t with
      | false => exact ⟨b.way i, (Address.way_le_way early i).trans behind, _,
          timely.follow exit kind⟩
      | true => exact ⟨c.way i, behind, _,
          timely.join exit kind isFirst (early.trans_lt (Address.lt_way c i))⟩

theorem IsFirst.exists_inTime (first : IsFirst p t a) : ∃ names, InTime p a t names := by
  obtain ⟨_, route⟩ := first.1
  obtain ⟨b, early, names, timely⟩ := Plan.exists_inTime route
  obtain ⟨_, route'⟩ := timely.exists_route
  obtain rfl : b = a := le_antisymm early (first.2 b _ route')
  exact ⟨names, timely⟩

/-- Without joins, nothing comes late. -/
theorem inTime_iff_route (plain : ∀ t, p.isJoin t = false) :
    InTime p a t names ↔ Route p a t names := by
  constructor
  · intro timely
    induction timely with
    | start first => exact .start first
    | follow _ exit _ ih => exact .follow ih exit
    | join _ _ join _ _ _ =>
      rw [plain] at join
      cases join
  · intro route
    induction route with
    | start first => exact .start first
    | follow _ exit ih => exact .follow ih exit (plain _)

/-- Routes with the fewest transitions are in time. -/
theorem inTime_of_shortest (route : Route p a t names)
    (shortest : ∀ b names', Route p b t names' → a.depth ≤ b.depth) :
    ∃ b ≤ a, InTime p b t names := by
  induction route with
  | start first => exact ⟨_, le_refl _, .start first⟩
  | @follow a t d names published i before exit ih =>
    obtain ⟨b, early, timely⟩ := ih fun c names' other => by
      have := shortest (c.way i) (names' ++ published) (.follow other exit)
      simp only [Address.depth] at this
      omega
    cases kind : p.isJoin d with
    | false => exact ⟨b.way i, Address.way_le_way early i, timely.follow exit kind⟩
    | true =>
      obtain ⟨m, first⟩ := exists_first ⟨_, _, before.follow exit⟩
      obtain ⟨_, route⟩ := first.1
      have far : a.depth + 1 ≤ m.depth := shortest m _ route
      have near : a < m := Address.lt_of_depth_lt far
      exact ⟨m, first.2 _ _ (before.follow exit),
        timely.join exit kind first (early.trans_lt near)⟩

end Workflow.Plan

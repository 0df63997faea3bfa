import Mathlib.Data.List.Pairwise
import Workflow.Proofs.Inspection.Vocabulary.Visits
import Workflow.Proofs.Worklist

/-!
The turns of the analysis. The invariant `Walked` says of a state which turns are over and which are
in the queue: they come in the order of their addresses, what a task knows after a turn is on routes
that are in time by then, and what a turn sends along the ways out of its task is in the queue or
has come. The invariant is kept by turns that are skipped (`Walked.skip`) and by those that are
worked through (`Walked.work`).
-/

namespace Workflow.Inspection.Vocabulary

variable {r : Registry} {p : Plan} {s : State} {past turns rest sent : List Turn} {x y : Turn}
  {a b : Address} {t d n : String} {names published : List String} {i : Nat}

/-- The name is on a route to the task that is in time, up to this address. -/
def Learns (p : Plan) (a : Address) (t n : String) : Prop :=
  ∃ b ≤ a, ∃ names, p.InTime b t names ∧ n ∈ names

/-- The turn comes before another one, which is not the same join's. -/
def Turn.Before (p : Plan) (x y : Turn) : Prop :=
  x.address < y.address ∧ (p.isJoin x.task = true → x.task ≠ y.task)

/-- The turn is that of a start task, or comes along a way out of the task of an earlier one. -/
def Origin (p : Plan) (past : List Turn) (y : Turn) : Prop :=
  (∃ i, p.starts[i]? = some y.task ∧ y.address = .way .root i) ∨
    ∃ x ∈ past, ∃ i published, (p.exits x.task)[i]? = some (y.task, published) ∧
      y.address = x.address.way i

/-- A turn up to this address, over or not, brings these names to the task. -/
def Delivered (past turns : List Turn) (t : String) (a : Address) (names : List String) : Prop :=
  ∃ y ∈ past ++ turns, y.task = t ∧ y.address ≤ a ∧ names ⊆ y.names

def outset (r : Registry) (p : Plan) : State :=
  let (declaring, declared) := bind r [] (p.inputs ++ p.vars)
  State.start p declared (record [] declaring)

/-- What holds throughout the run, with the turns that are over and those in the queue. -/
structure Walked (r : Registry) (p : Plan) (s : State) (past turns : List Turn) : Prop where
  queue : s.queue = turns.map Turn.entry
  ordered : (past ++ turns).Pairwise (Turn.Before p)
  origin : ∀ y ∈ past ++ turns, Origin p past y
  /-- What a task knows is on routes that are in time. -/
  learned : ∀ x ∈ past, ∀ n ∈ x.names, Learns p x.address x.task n
  brought : ∀ y ∈ turns, p.isJoin y.task = false ∨ y.task ∈ p.starts →
    ∀ n ∈ y.names, Learns p y.address y.task n
  started : ∀ i t, p.starts[i]? = some t → Delivered past turns t (.way .root i) p.declared
  followed : ∀ x ∈ past, ∀ i d published, (p.exits x.task)[i]? = some (d, published) →
    p.isJoin d = false → Delivered past turns d (x.address.way i) (x.names ++ published)
  /-- A way to a join leads to its only turn, which brings all that was sent before it. -/
  joined : ∀ x ∈ past, ∀ i d published, (p.exits x.task)[i]? = some (d, published) →
    p.isJoin d = true → ∃ y ∈ past ++ turns, y.task = d ∧ y.address ≤ x.address.way i ∧
      (y ∈ past → x.address < y.address → x.names ++ published ⊆ y.names)
  entered : ∀ d, s.joins.contains d = true ↔
    p.isJoin d = true ∧ ∃ x ∈ past, ∃ published, (d, published) ∈ p.exits x.task
  held : ∀ d n, s.Holds d n ↔ p.isJoin d = true ∧
    ∃ x ∈ past, ∃ published, (d, published) ∈ p.exits x.task ∧ (n ∈ x.names ∨ n ∈ published)
  /-- What a task knows, it knows by one of its turns, and that is all from its turns. -/
  known : ∀ t names, s.known.get? t = some names → ∃ x ∈ past, x.task = t ∧ x.names = names
  kept : ∀ x ∈ past, ∃ names, s.known.get? x.task = some names ∧ x.names ⊆ names
  grows : past.Pairwise fun x y => x.task = y.task → x.names ⊆ y.names
  unique : ∀ x ∈ past, x.names.Nodup
  found : ∀ d, d ∈ s.found ↔
    d ∈ (bind r [] (p.inputs ++ p.vars)).1 ∨ ∃ x ∈ past, IsProblemOf r p x.task x.names d

theorem Learns.mono (learns : Learns p a t n) (later : a ≤ b) : Learns p b t n := by
  obtain ⟨c, early, rest⟩ := learns
  exact ⟨c, early.trans later, rest⟩

/-- What is delivered is still to come, or a turn has brought it. -/
theorem Delivered.waits_or_passed {c : Address} (delivered : Delivered past turns t b names)
    (later : b ≤ c) :
    (∃ y ∈ turns, y.address ≤ c) ∨
      ∃ x ∈ past, x.task = t ∧ x.address ≤ c ∧ names ⊆ x.names := by
  obtain ⟨y, inside, task, place, brings⟩ := delivered
  rcases List.mem_append.mp inside with passed | waits
  · exact .inr ⟨y, passed, task, place.trans later, brings⟩
  · exact .inl ⟨y, waits, place.trans later⟩

/-- What a turn brings along a way is on a route in time to its task, or published on the way. -/
theorem exists_inTime_of_brought (route : p.Route a t names)
    (brought : Learns p a t n ∨ n ∈ published) :
    ∃ b ≤ a, ∃ names', p.InTime b t names' ∧ n ∈ names' ++ published := by
  rcases brought with ⟨b, early, names', timely, inside⟩ | fresh
  · exact ⟨b, early, names', timely, List.mem_append_left _ inside⟩
  · obtain ⟨b, early, names', timely⟩ := Plan.exists_inTime route
    exact ⟨b, early, names', timely, List.mem_append_right _ fresh⟩

/-- A turn that is over, with all that its task knows then. -/
def Turn.after (y : Turn) (s : State) : Turn :=
  { y with names := s.learned y.task y.names }

namespace Walked

section Order

/-- Turns are over in the order of their addresses. -/
theorem lt_of_passed (walked : Walked r p s past turns) (passed : x ∈ past) (waits : y ∈ turns) :
    x.address < y.address :=
  ((List.pairwise_append.mp walked.ordered).2.2 x passed y waits).1

theorem behind_head (walked : Walked r p s past (y :: rest)) (waits : x ∈ rest) :
    y.address < x.address :=
  ((List.pairwise_cons.mp (List.pairwise_append.mp walked.ordered).2.1).1 x waits).1

theorem head_le (walked : Walked r p s past (y :: rest)) (waits : x ∈ y :: rest) :
    y.address ≤ x.address := by
  rcases List.mem_cons.mp waits with rfl | later
  · exact le_refl _
  · exact le_of_lt (walked.behind_head later)

/-- A join has one turn only. -/
theorem eq_of_join (walked : Walked r p s past turns) (inside : x ∈ past ++ turns)
    (inside' : y ∈ past ++ turns) (join : p.isJoin x.task = true) (same : x.task = y.task) :
    x = y := by
  have symmetric : Std.Symm fun x y : Turn =>
      p.isJoin x.task = true → x.task = y.task → x = y :=
    ⟨fun x y equal join same => (equal (same ▸ join) same.symm).symm⟩
  have equal : (past ++ turns).Pairwise fun x y =>
      p.isJoin x.task = true → x.task = y.task → x = y :=
    walked.ordered.imp fun apart join same => absurd same (apart.2 join)
  exact List.Pairwise.forall_of_forall (fun _ _ _ _ => rfl) equal inside inside' join same

theorem ne_of_join (walked : Walked r p s past turns) (passed : x ∈ past) (waits : y ∈ turns)
    (join : p.isJoin x.task = true) : x.task ≠ y.task :=
  ((List.pairwise_append.mp walked.ordered).2.2 x passed y waits).2 join

/-- A turn comes along a route. -/
theorem exists_route (walked : Walked r p s past turns) (inside : y ∈ past ++ turns) :
    ∃ names, p.Route y.address y.task names := by
  have along : ∀ a, ∀ y ∈ past ++ turns, y.address = a → ∃ names, p.Route a y.task names := by
    intro a
    induction a with
    | root =>
      intro y inside place
      rcases walked.origin y inside with ⟨i, _, place'⟩ | ⟨_, _, i, _, _, place'⟩
      · cases place.symm.trans place'
      · cases place.symm.trans place'
    | way a j ih =>
      intro y inside place
      rcases walked.origin y inside with ⟨i, first, place'⟩ | ⟨x, passed, i, _, exit, place'⟩
      · cases place.symm.trans place'
        exact ⟨_, .start first⟩
      · cases place.symm.trans place'
        obtain ⟨names, route⟩ := ih x (List.mem_append_left _ passed) rfl
        exact ⟨_, .follow route exit⟩
  exact along _ y inside rfl

/-- What the next turn sends comes behind all other turns. -/
theorem before_sent (walked : Walked r p s past (y :: rest)) (inside : x ∈ past ++ y :: rest)
    (i : Nat) : x.address < y.address.way i := by
  have head : Address.root < y.address := by
    rcases walked.origin y (List.mem_append_right _ List.mem_cons_self) with
      ⟨j, _, place⟩ | ⟨z, _, j, _, _, place⟩
    · rw [place]
      exact trivial
    · rw [place]
      exact trivial
  rcases walked.origin x inside with ⟨j, _, place⟩ | ⟨z, passed, j, _, _, place⟩
  · rw [place, Address.way_lt_way_iff]
    exact .inl head
  · rw [place, Address.way_lt_way_iff]
    exact .inl (walked.lt_of_passed passed List.mem_cons_self)

/-- Every route is over or still to come. -/
theorem reached (walked : Walked r p s past turns) (route : p.Route b t names) :
    (∃ y ∈ turns, y.address ≤ b) ∨ ∃ x ∈ past, x.task = t ∧ x.address ≤ b := by
  have some_turn : ∀ {t b c names}, Delivered past turns t b names → b ≤ c →
      (∃ y ∈ turns, y.address ≤ c) ∨ ∃ x ∈ past, x.task = t ∧ x.address ≤ c :=
    fun delivered later => (delivered.waits_or_passed later).imp_right
      fun ⟨x, passed, task, place, _⟩ => ⟨x, passed, task, place⟩
  induction route with
  | start first => exact some_turn (walked.started _ _ first) (le_refl _)
  | @follow a t d _ published i _ exit ih =>
    rcases ih with ⟨y, waits, place⟩ | ⟨x, passed, rfl, place⟩
    · exact .inl ⟨y, waits, place.trans (le_of_lt (Address.lt_way a i))⟩
    · have further := Address.way_le_way place i
      cases kind : p.isJoin d with
      | false =>
        exact some_turn (walked.followed x passed i d published exit kind) further
      | true =>
        obtain ⟨y, inside, task, place', _⟩ := walked.joined x passed i d published exit kind
        rcases List.mem_append.mp inside with passed' | waits
        · exact .inr ⟨y, passed', task, place'.trans further⟩
        · exact .inl ⟨y, waits, place'.trans further⟩

/-- The first turn of a task has the address of the first route. -/
theorem isFirst_head (walked : Walked r p s past (y :: rest)) (new : ∀ x ∈ past, x.task ≠ y.task) :
    p.IsFirst y.task y.address := by
  refine ⟨walked.exists_route (List.mem_append_right _ List.mem_cons_self), fun b names route => ?_⟩
  rcases walked.reached route with ⟨z, waits, place⟩ | ⟨x, passed, task, _⟩
  · exact (walked.head_le waits).trans place
  · exact absurd task (new x passed)

end Order

section Incoming

/-- A join that a way leads to holds something; other tasks get what their turn brings. -/
theorem incoming_eq (walked : Walked r p s past turns)
    (kind : p.isJoin t = false ∨ t ∈ p.starts) (names : List String) :
    s.incoming t names = names := by
  have absent : s.joins.contains t ≠ true := by
    intro present
    obtain ⟨join, x, _, published, exit⟩ := (walked.entered t).mp present
    obtain ⟨i, exit⟩ := List.mem_iff_getElem?.mp exit
    rcases kind with plain | first
    · rw [plain] at join
      cases join
    · exact Plan.not_start_of_exit exit first
  have nothing : s.joins.get? t = none := by
    simpa [Table.contains] using absent
  rw [State.incoming, nothing]
  rfl

/-- A join that has a turn is a start task, or a way leads to it. -/
theorem start_or_entered (walked : Walked r p s past turns) (inside : y ∈ past ++ turns)
    (join : p.isJoin y.task = true) : y.task ∈ p.starts ∨ s.joins.contains y.task = true := by
  rcases walked.origin y inside with ⟨i, first, _⟩ | ⟨x, passed, i, published, exit, _⟩
  · exact .inl (List.mem_of_getElem? first)
  · exact .inr ((walked.entered _).mpr ⟨join, x, passed, published, List.mem_of_getElem? exit⟩)

/-- A name that a visit brings is held by the join, or comes with the turn. -/
theorem mem_incoming (walked : Walked r p s past turns) (inside : y ∈ past ++ turns)
    (brought : n ∈ s.incoming y.task y.names) :
    s.Holds y.task n ∨ (p.isJoin y.task = false ∨ y.task ∈ p.starts) ∧ n ∈ y.names := by
  by_cases kind : p.isJoin y.task = false ∨ y.task ∈ p.starts
  · rw [walked.incoming_eq kind] at brought
    exact .inr ⟨kind, brought⟩
  · rw [not_or, Bool.not_eq_false] at kind
    have present := (walked.start_or_entered inside kind.1).resolve_left kind.2
    obtain ⟨held, same⟩ := Option.isSome_iff_exists.mp present
    rw [State.incoming, same] at brought
    exact .inl ⟨held, same, brought⟩

theorem mem_incoming_of_holds (holds : s.Holds t n) (names : List String) :
    n ∈ s.incoming t names := by
  obtain ⟨held, same, inside⟩ := holds
  rw [State.incoming, same]
  exact inside

/-- All that a task learns by its turn is on routes that are in time. -/
theorem learns_head (walked : Walked r p s past (y :: rest))
    (learned : n ∈ s.learned y.task y.names) : Learns p y.address y.task n := by
  have head : y ∈ past ++ y :: rest := List.mem_append_right _ List.mem_cons_self
  rcases mem_extend.mp learned with old | brought
  · cases before : s.known.get? y.task with
    | none => simp [before] at old
    | some names =>
      obtain ⟨x, passed, task, rfl⟩ := walked.known _ _ before
      rw [before] at old
      have earlier := walked.lt_of_passed passed List.mem_cons_self
      rw [← task]
      exact (walked.learned x passed n old).mono (le_of_lt earlier)
  · rcases walked.mem_incoming head brought with holds | ⟨kind, own⟩
    · obtain ⟨join, x, passed, published, exit, inside⟩ := (walked.held _ _).mp holds
      obtain ⟨i, exit⟩ := List.mem_iff_getElem?.mp exit
      have first : p.IsFirst y.task y.address := walked.isFirst_head fun z passed' same =>
        walked.ne_of_join passed' List.mem_cons_self (same ▸ join) same
      have earlier := walked.lt_of_passed passed List.mem_cons_self
      obtain ⟨_, route⟩ := walked.exists_route (List.mem_append_left _ passed)
      obtain ⟨b, early, _, timely, member⟩ :=
        exists_inTime_of_brought route (inside.imp_left (walked.learned x passed n))
      exact ⟨_, le_refl _, _, timely.join exit join first (early.trans_lt earlier), member⟩
    · exact walked.brought y List.mem_cons_self kind n own

end Incoming

section Skip

/-- A turn that is skipped brings nothing that an earlier one did not bring. -/
theorem exists_of_skips (walked : Walked r p s past (y :: rest)) (skips : s.Skips y.task y.names) :
    p.isJoin y.task = false ∧
      ∃ x ∈ past, x.task = y.task ∧ x.address ≤ y.address ∧ y.names ⊆ x.names := by
  obtain ⟨names, before, old⟩ := skips
  obtain ⟨x, passed, task, rfl⟩ := walked.known _ _ before
  have plain : p.isJoin y.task = false := by
    rw [← Bool.not_eq_true]
    exact fun join => walked.ne_of_join passed List.mem_cons_self (task ▸ join) task
  rw [walked.incoming_eq (.inl plain)] at old
  exact ⟨plain, x, passed, task, le_of_lt (walked.lt_of_passed passed List.mem_cons_self), old⟩

/-- A visit that is skipped leaves what holds throughout the run. -/
theorem skip (walked : Walked r p s past (y :: rest)) (skips : s.Skips y.task y.names) :
    Walked r p { s with queue := rest.map Turn.entry } past rest := by
  obtain ⟨plain, x, passed, task, early, old⟩ := walked.exists_of_skips skips
  have part : List.Sublist (past ++ rest) (past ++ y :: rest) :=
    List.Sublist.append_left (List.sublist_cons_self y rest) past
  have replaced : ∀ {t a names}, Delivered past (y :: rest) t a names →
      Delivered past rest t a names := by
    rintro t a names ⟨z, inside, same, place, brings⟩
    rcases List.mem_append.mp inside with passed' | waits
    · exact ⟨z, List.mem_append_left _ passed', same, place, brings⟩
    · rcases List.mem_cons.mp waits with rfl | later
      · exact ⟨x, List.mem_append_left _ passed, task.trans same, early.trans place,
          fun n member => old (brings member)⟩
      · exact ⟨z, List.mem_append_right _ later, same, place, brings⟩
  refine
    { walked with
      queue := rfl
      ordered := walked.ordered.sublist part
      origin := fun z inside => walked.origin z (part.subset inside)
      brought := fun z waits => walked.brought z (List.mem_cons_of_mem y waits)
      started := fun i t first => replaced (walked.started i t first)
      followed := fun z passed' i d published exit kind =>
        replaced (walked.followed z passed' i d published exit kind)
      joined := ?_ }
  intro z passed' i d published exit join
  obtain ⟨w, inside, same, rest⟩ := walked.joined z passed' i d published exit join
  refine ⟨w, ?_, same, rest⟩
  rcases List.mem_append.mp inside with passed'' | waits
  · exact List.mem_append_left _ passed''
  · rcases List.mem_cons.mp waits with rfl | later
    · rw [same, join] at plain
      cases plain
    · exact List.mem_append_right _ later

end Skip

section Work

variable {s₀ s₁ : State}

/-- What a task knew, it knows after every later turn. -/
theorem subset_learned (walked : Walked r p s past turns) (passed : x ∈ past) (task : x.task = t)
    (names : List String) : x.names ⊆ s.learned t names := by
  obtain ⟨names', same, part⟩ := walked.kept x passed
  intro n inside
  rw [State.learned, mem_extend, ← task, same]
  exact .inl (part inside)

/-- When the next turn is over, all turns have the places and the tasks that they had, and bring to
start tasks and to those that are no joins all that they brought. -/
private theorem exists_same (walked : Walked r p s past (y :: rest))
    (inside : x ∈ past ++ y :: rest) (sent : List Turn) :
    ∃ z ∈ past ++ [y.after s] ++ (rest ++ sent), z.address = x.address ∧ z.task = x.task ∧
      (p.isJoin x.task = false ∨ x.task ∈ p.starts → x.names ⊆ z.names) := by
  rw [List.append_assoc, List.singleton_append, ← List.cons_append]
  rcases List.mem_append.mp inside with passed | waits
  · exact ⟨x, List.mem_append_left _ passed, rfl, rfl, fun _ => List.Subset.refl _⟩
  · rcases List.mem_cons.mp waits with rfl | later
    · refine ⟨x.after s, List.mem_append_right _ List.mem_cons_self, rfl, rfl, ?_⟩
      intro kind n brought
      refine mem_extend.mpr (.inr ?_)
      rw [walked.incoming_eq kind]
      exact brought
    · refine ⟨x, List.mem_append_right _ ?_, rfl, rfl, fun _ => List.Subset.refl _⟩
      exact List.mem_cons_of_mem _ (List.mem_append_left _ later)

/-- After the next turn, a turn is one of those before, or was sent. -/
private theorem same_or_sent (inside : x ∈ past ++ [y.after s] ++ (rest ++ sent)) :
    (∃ z ∈ past ++ y :: rest, z.address = x.address ∧ z.task = x.task) ∨ x ∈ sent := by
  rw [List.append_assoc, List.singleton_append, ← List.cons_append] at inside
  rcases List.mem_append.mp inside with passed | later
  · exact .inl ⟨x, List.mem_append_left _ passed, rfl, rfl⟩
  · rcases List.mem_append.mp later with waits | new
    · rcases List.mem_cons.mp waits with rfl | later'
      · exact .inl ⟨y, List.mem_append_right _ List.mem_cons_self, rfl, rfl⟩
      · exact .inl ⟨x, List.mem_append_right _ (List.mem_cons_of_mem y later'), rfl, rfl⟩
    · exact .inr new

private theorem delivered_work (walked : Walked r p s past (y :: rest))
    (kind : p.isJoin t = false ∨ t ∈ p.starts) (delivered : Delivered past (y :: rest) t a names) :
    Delivered (past ++ [y.after s]) (rest ++ sent) t a names := by
  obtain ⟨x, inside, rfl, place, brings⟩ := delivered
  obtain ⟨z, inside', place', task, more⟩ := walked.exists_same inside sent
  exact ⟨z, inside', task, place'.trans_le place, List.Subset.trans brings (more kind)⟩

private theorem ordered_work (walked : Walked r p s past (y :: rest))
    (send : Sent p (y.after s) (p.exits y.task) s₀ s₁ sent) (joins : s₀.joins = s.joins) :
    (past ++ [y.after s] ++ (rest ++ sent)).Pairwise (Turn.Before p) := by
  have moved : (past ++ y.after s :: rest).Pairwise (Turn.Before p) := by
    have ordered := walked.ordered
    rw [List.pairwise_append, List.pairwise_cons] at ordered ⊢
    obtain ⟨first, second, third⟩ := ordered
    refine ⟨first, second, fun x passed z waits => ?_⟩
    rcases List.mem_cons.mp waits with rfl | later
    · exact third x passed y List.mem_cons_self
    · exact third x passed z (List.mem_cons_of_mem y later)
  rw [List.append_assoc, List.singleton_append, ← List.cons_append, ← List.append_assoc,
    List.pairwise_append]
  refine ⟨moved, send.sorted.and send.single, fun x inside z new => ?_⟩
  have inside' : x ∈ past ++ [y.after s] ++ (rest ++ []) := by
    simpa using inside
  obtain ⟨w, old, place, task⟩ := (same_or_sent inside').resolve_right List.not_mem_nil
  obtain ⟨i, published, exit, place', _⟩ := send.along z new
  refine ⟨?_, fun join same => ?_⟩
  · rw [← place, place']
    exact walked.before_sent old i
  · rw [← task] at join same
    have absent := send.fresh z new (same ▸ join)
    rw [joins, ← same] at absent
    rcases walked.start_or_entered old join with first | present
    · exact Plan.not_start_of_exit exit (same ▸ first)
    · rw [absent] at present
      cases present

/-- What a turn sends to a task that is no join is on routes that are in time. -/
private theorem learns_sent (walked : Walked r p s past (y :: rest))
    (exit : (p.exits y.task)[i]? = some (d, published)) (plain : p.isJoin d = false)
    (brought : n ∈ s.learned y.task y.names ∨ n ∈ published) : Learns p (y.address.way i) d n := by
  obtain ⟨_, route⟩ := walked.exists_route (List.mem_append_right past List.mem_cons_self)
  obtain ⟨b, early, _, timely, member⟩ :=
    exists_inTime_of_brought route (brought.imp_left walked.learns_head)
  exact ⟨b.way i, Address.way_le_way early i, _, timely.follow exit plain, member⟩

private theorem followed_work (send : Sent p x (p.exits x.task) s₀ s₁ sent)
    (exit : (p.exits x.task)[i]? = some (d, published)) (plain : p.isJoin d = false) :
    Delivered (past ++ [x]) (rest ++ sent) d (x.address.way i) (x.names ++ published) := by
  obtain ⟨z, new, place⟩ := send.plain i d published exit plain
  obtain ⟨j, published', exit', place', names⟩ := send.along z new
  cases place.symm.trans place'
  cases exit.symm.trans exit'
  refine ⟨z, List.mem_append_right _ (List.mem_append_right _ new), rfl, place.le, ?_⟩
  intro n inside
  rw [names, mem_extend]
  exact List.mem_append.mp inside

private theorem le_of_passed (walked : Walked r p s past (y :: rest))
    (passed : x ∈ past ++ [y.after s]) : x.address ≤ y.address := by
  rcases mem_concat_iff.mp passed with before | rfl
  · exact le_of_lt (walked.lt_of_passed before List.mem_cons_self)
  · exact le_refl _

/-- The next turn brings to its join all that was sent there; what it sends itself to a join comes
too late for a turn that is over. -/
private theorem joined_work (walked : Walked r p s past (y :: rest))
    (send : Sent p (y.after s) (p.exits y.task) s₀ s₁ sent) (joins : s₀.joins = s.joins)
    (passed : x ∈ past ++ [y.after s]) (exit : (p.exits x.task)[i]? = some (d, published))
    (join : p.isJoin d = true) :
    ∃ z ∈ past ++ [y.after s] ++ (rest ++ sent), z.task = d ∧ z.address ≤ x.address.way i ∧
      (z ∈ past ++ [y.after s] → x.address < z.address → x.names ++ published ⊆ z.names) := by
  rcases mem_concat_iff.mp passed with before | rfl
  · obtain ⟨z, inside, rfl, place, brings⟩ := walked.joined x before i d published exit join
    rcases List.mem_append.mp inside with passed' | waits
    · refine ⟨z, List.mem_append_left _ (List.mem_append_left _ passed'), rfl, place, fun _ => ?_⟩
      exact brings passed'
    · rcases List.mem_cons.mp waits with rfl | later
      · have last : z.after s ∈ past ++ [z.after s] := List.mem_concat_self
        refine ⟨z.after s, List.mem_append_left _ last, rfl, place, fun _ _ n inside' => ?_⟩
        have holds : s.Holds z.task n := (walked.held _ _).mpr
          ⟨join, x, before, published, List.mem_of_getElem? exit, List.mem_append.mp inside'⟩
        exact mem_extend.mpr (.inr (mem_incoming_of_holds holds _))
      · refine ⟨z, List.mem_append_right _ (List.mem_append_left _ later), rfl, place, ?_⟩
        intro passed'
        exact absurd (walked.le_of_passed passed') (not_le.mpr (walked.behind_head later))
  · have vacuous : ∀ z ∈ past ++ [y.after s], (y.after s).address < z.address →
        (y.after s).names ++ published ⊆ z.names :=
      fun z passed' behind => absurd (walked.le_of_passed passed') (not_le.mpr behind)
    rcases send.join i d published exit join with present | ⟨z, new, task, place⟩
    · rw [joins] at present
      obtain ⟨_, x, before, published', exit'⟩ := (walked.entered d).mp present
      obtain ⟨j, exit'⟩ := List.mem_iff_getElem?.mp exit'
      obtain ⟨z, inside, task, _⟩ := walked.joined x before j d published' exit' join
      obtain ⟨w, inside', place, task', _⟩ := walked.exists_same inside sent
      refine ⟨w, inside', task'.trans task, ?_, vacuous w⟩
      rw [place]
      exact le_of_lt (walked.before_sent inside i)
    · exact ⟨z, List.mem_append_right _ (List.mem_append_right _ new), task, place, vacuous z⟩

/-- A visit that is worked through is over, and what it sends comes last. -/
theorem work (walked : Walked r p s past (y :: rest)) (works : ¬s.Skips y.task y.names) :
    ∃ sent, Walked r p (visit p r { s with queue := rest.map Turn.entry } y.task y.names)
        (past ++ [y.after s]) (rest ++ sent) ∧
      sent.length ≤ (p.exits y.task).length ∧
      (visit p r { s with queue := rest.map Turn.entry } y.task y.names).known =
        s.known.insert y.task (y.after s).names := by
  let x : Turn := y.after s
  let s₀ : State :=
    { s with queue := rest.map Turn.entry, known := s.known.insert y.task x.names }
  have on : ∀ e ∈ p.exits y.task, p.leadsOn e.1 = true := Plan.leadsOn_of_mem_exits
  let s₁ : State := (p.exits y.task).foldl (deliver p x.names) s₀
  obtain ⟨all, found, visited, problems⟩ : ∃ all found,
      visit p r { s with queue := rest.map Turn.entry } y.task y.names =
        { s₁ with all := all, found := found } ∧
      ∀ d, d ∈ found ↔ d ∈ s.found ∨ IsProblemOf r p x.task x.names d := visit_works works
  obtain ⟨sent, send⟩ : ∃ sent, Sent p x (p.exits y.task) s₀ s₁ sent := exists_sent on
  rw [visited]
  refine ⟨sent, ?_, send.few, known_deliver on⟩
  have old : ∀ {z}, z ∈ past → z ∈ past ++ [x] := fun passed => List.mem_append_left _ passed
  have new : x ∈ past ++ [x] := List.mem_concat_self
  exact
    { queue := by
        rw [List.map_append]
        exact send.queue
      ordered := walked.ordered_work send rfl
      origin := by
        intro z inside
        rcases same_or_sent inside with ⟨w, before, place, task⟩ | sent'
        · rcases walked.origin w before with first | ⟨v, passed, rest⟩
          · rw [place, task] at first
            exact .inl first
          · rw [place, task] at rest
            exact .inr ⟨v, old passed, rest⟩
        · obtain ⟨i, published, exit, place, _⟩ := send.along z sent'
          exact .inr ⟨x, new, i, published, exit, place⟩
      learned := by
        intro z passed
        rcases mem_concat_iff.mp passed with before | rfl
        · exact walked.learned z before
        · exact fun n inside => walked.learns_head inside
      brought := by
        intro z inside kind n brings
        rcases List.mem_append.mp inside with waits | sent'
        · exact walked.brought z (List.mem_cons_of_mem y waits) kind n brings
        · obtain ⟨i, published, exit, place, names⟩ := send.along z sent'
          have plain := kind.resolve_right (Plan.not_start_of_exit exit)
          rw [names, mem_extend] at brings
          rw [place]
          exact walked.learns_sent exit plain brings
      started := fun i t first =>
        walked.delivered_work (.inr (List.mem_of_getElem? first)) (walked.started i t first)
      followed := by
        intro z passed i d published exit plain
        rcases mem_concat_iff.mp passed with before | rfl
        · have delivered := walked.followed z before i d published exit plain
          exact walked.delivered_work (.inl plain) delivered
        · exact followed_work send exit plain
      joined := fun z passed i d published exit join => walked.joined_work send rfl passed exit join
      entered := by
        intro d
        have entered : s₁.joins.contains d = true ↔ s.joins.contains d = true ∨ _ :=
          contains_deliver on
        rw [entered, walked.entered, exists_mem_concat_iff, and_or_left]
        rfl
      held := by
        intro d n
        have held : s₁.Holds d n ↔ s.Holds d n ∨ _ := holds_deliver on
        refine held.trans ?_
        rw [walked.held, exists_mem_concat_iff, and_or_left]
        rfl
      known := by
        intro t names knows
        rw [known_deliver on, Table.get?_insert] at knows
        by_cases same : t = y.task
        · rw [if_pos same] at knows
          exact ⟨x, new, same.symm, Option.some.inj knows⟩
        · rw [if_neg same] at knows
          obtain ⟨z, before, rest⟩ := walked.known t names knows
          exact ⟨z, old before, rest⟩
      kept := by
        intro z passed
        rw [known_deliver on, Table.get?_insert]
        by_cases same : z.task = y.task
        · rw [if_pos same]
          refine ⟨x.names, rfl, ?_⟩
          rcases mem_concat_iff.mp passed with before | rfl
          · exact walked.subset_learned before same y.names
          · exact List.Subset.refl _
        · rw [if_neg same]
          rcases mem_concat_iff.mp passed with before | rfl
          · exact walked.kept z before
          · exact absurd rfl same
      grows := by
        refine pairwise_concat_iff.mpr ⟨walked.grows, fun z before same => ?_⟩
        exact walked.subset_learned before same y.names
      unique := by
        intro z passed
        rcases mem_concat_iff.mp passed with before | rfl
        · exact walked.unique z before
        · refine nodup_extend ?_
          cases knows : s.known.get? y.task with
          | none => exact List.nodup_nil
          | some names =>
            obtain ⟨z, before, _, rfl⟩ := walked.known _ _ knows
            exact walked.unique z before
      found := by
        intro d
        rw [problems, walked.found, exists_mem_concat_iff, or_assoc] }

end Work

end Walked

end Workflow.Inspection.Vocabulary

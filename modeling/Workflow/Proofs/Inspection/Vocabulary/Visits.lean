import Mathlib.Data.List.Induction
import Workflow.Proofs.Inspection.Vocabulary.Names
import Workflow.Proofs.Plan.Routes

/-!
What one visit does. A visit that brings nothing new changes nothing. Any other finds the problems
of the task (`visit_works`), adds to what the joins hold, and sends turns along the ways out of the
task (`exists_sent`): one along every way to a task that is no join, and one to every join that
nothing was brought to before.
-/

namespace Workflow.Inspection.Vocabulary

variable {p : Plan} {r : Registry} {s s' : State} {t d e n : String}
  {known names brought published : List String} {exits : List (String × List String)}

/-- The names that a visit brings: for a join, all that it holds. -/
def State.incoming (s : State) (t : String) (brought : List String) : List String :=
  (s.joins.get? t).getD brought

/-- The names that the task knows after a visit. -/
def State.learned (s : State) (t : String) (brought : List String) : List String :=
  extend ((s.known.get? t).getD []) (s.incoming t brought)

/-- The task was visited before, and the visit brings nothing new. -/
def State.Skips (s : State) (t : String) (brought : List String) : Prop :=
  ∃ known, s.known.get? t = some known ∧ ∀ n ∈ s.incoming t brought, n ∈ known

/-- The name was brought to the join. -/
def State.Holds (s : State) (d n : String) : Prop :=
  ∃ held, s.joins.get? d = some held ∧ n ∈ held

/-- It is a problem of the task if that knows these names. -/
def IsProblemOf (r : Registry) (p : Plan) (t : String) (known : List String) (d : Diagnostic) :
    Prop :=
  ∃ task, p.tasks.get? t = some task ∧ ∃ s earlier, task.HasSite s earlier ∧
    ∃ v ∈ r.variableRefs s.text, v.name ∉ known ∧ v.name ∉ earlier ∧ problem s v = d

/-- The problems of a task that knows these names, in the order in which they are found. -/
def taskProblems (r : Registry) (p : Plan) (t : String) (known : List String) : List Diagnostic :=
  match p.tasks.get? t with
  | none => []
  | some task => unknown r known task.sites ++ task.clauses.flatMap (clauseProblems r known)

theorem isProblemOf_iff {d : Diagnostic} :
    IsProblemOf r p t known d ↔ d ∈ taskProblems r p t known := by
  unfold IsProblemOf taskProblems
  cases p.tasks.get? t with
  | none => simp
  | some task =>
    simp only [Option.some.injEq, exists_eq_left', ← mem_taskProblems_iff, List.mem_append,
      List.mem_flatMap]

/-- All names, with those that come by the clauses of a task that knows these names. -/
def gathered (p : Plan) (t : String) (known all : List String) : List String :=
  match p.tasks.get? t with
  | none => all
  | some task => task.clauses.foldl
      (fun all c => extend all (extend known (c.publish.map Binding.name))) all

/-- Brings the names that a task knows, and those published, along a way out of it. -/
def deliver (p : Plan) (known : List String) (s : State) (exit : String × List String) : State :=
  bring p (extend known exit.2) s exit.1

section Bring

theorem bring_of_not_leadsOn (off : p.leadsOn d = false) : bring p names s d = s := by
  unfold Plan.leadsOn at off
  unfold bring
  rw [if_pos]
  cases reserved : isReserved d with
  | true => rfl
  | false => simpa [reserved] using off

theorem bring_plain (on : p.leadsOn d = true) (plain : p.isJoin d = false) :
    bring p names s d = { s with queue := s.queue ++ [(d, names)] } := by
  unfold Plan.leadsOn at on
  rw [Bool.and_eq_true, Bool.not_eq_true'] at on
  simp [bring, on.1, on.2, plain]

theorem bring_join (on : p.leadsOn d = true) (join : p.isJoin d = true) :
    bring p names s d =
      { s with
        joins := s.joins.insert d (extend ((s.joins.get? d).getD []) names)
        queue := s.queue ++ if s.joins.contains d then [] else [(d, names)] } := by
  unfold Plan.leadsOn at on
  rw [Bool.and_eq_true, Bool.not_eq_true'] at on
  cases held : s.joins.contains d <;> simp [bring, on.1, on.2, join, held]

/-- Bringing reads neither the problems nor the names known anywhere. -/
theorem bring_update (all : List String) (found : List Diagnostic) :
    bring p names { s with all := all, found := found } d =
      { bring p names s d with all := all, found := found } := by
  unfold bring
  split
  · rfl
  · split
    · dsimp only
      split <;> rfl
    · rfl

theorem contains_bring (on : p.leadsOn d = true) :
    (bring p names s d).joins.contains e = true ↔
      s.joins.contains e = true ∨ p.isJoin d = true ∧ e = d := by
  cases kind : p.isJoin d with
  | false => simp [bring_plain on kind]
  | true =>
    rw [bring_join on kind]
    unfold Table.contains
    rw [Table.get?_insert]
    by_cases same : e = d <;> simp [same]

/-- A join holds what was brought to it. -/
theorem holds_bring (on : p.leadsOn d = true) :
    (bring p names s d).Holds e n ↔ s.Holds e n ∨ p.isJoin d = true ∧ e = d ∧ n ∈ names := by
  unfold State.Holds
  cases kind : p.isJoin d with
  | false => simp [bring_plain on kind]
  | true =>
    rw [bring_join on kind]
    simp only [Table.get?_insert]
    by_cases same : e = d
    · subst same
      cases s.joins.get? e <;> simp [mem_extend]
    · simp [same]

end Bring

section Deliver

theorem deliver_update (all : List String) (found : List Diagnostic) :
    exits.foldl (deliver p known) { s with all := all, found := found } =
      { exits.foldl (deliver p known) s with all := all, found := found } := by
  induction exits generalizing s with
  | nil => rfl
  | cons e exits ih =>
    have first : deliver p known { s with all := all, found := found } e =
        { deliver p known s e with all := all, found := found } := bring_update all found
    rw [List.foldl_cons, List.foldl_cons, first, ih]

theorem contains_deliver (on : ∀ e ∈ exits, p.leadsOn e.1 = true) :
    (exits.foldl (deliver p known) s).joins.contains d = true ↔
      s.joins.contains d = true ∨ p.isJoin d = true ∧ ∃ published, (d, published) ∈ exits := by
  induction exits generalizing s with
  | nil => simp
  | cons e exits ih =>
    rw [List.forall_mem_cons] at on
    rw [List.foldl_cons, ih on.2, deliver, contains_bring on.1, or_assoc]
    refine or_congr Iff.rfl ⟨?_, ?_⟩
    · rintro (⟨join, rfl⟩ | ⟨join, published, later⟩)
      · exact ⟨join, e.2, List.mem_cons_self⟩
      · exact ⟨join, published, List.mem_cons_of_mem _ later⟩
    · rintro ⟨join, published, inside⟩
      rcases List.mem_cons.mp inside with rfl | later
      · exact .inl ⟨join, rfl⟩
      · exact .inr ⟨join, published, later⟩

/-- A join holds what the ways out of a task deliver to it. -/
theorem holds_deliver (on : ∀ e ∈ exits, p.leadsOn e.1 = true) :
    (exits.foldl (deliver p known) s).Holds d n ↔
      s.Holds d n ∨ p.isJoin d = true ∧
        ∃ published, (d, published) ∈ exits ∧ (n ∈ known ∨ n ∈ published) := by
  induction exits generalizing s with
  | nil => simp
  | cons e exits ih =>
    rw [List.forall_mem_cons] at on
    rw [List.foldl_cons, ih on.2, deliver, holds_bring on.1, mem_extend, or_assoc]
    refine or_congr Iff.rfl ⟨?_, ?_⟩
    · rintro (⟨join, rfl, brought⟩ | ⟨join, published, later, brought⟩)
      · exact ⟨join, e.2, List.mem_cons_self, brought⟩
      · exact ⟨join, published, List.mem_cons_of_mem _ later, brought⟩
    · rintro ⟨join, published, inside, brought⟩
      rcases List.mem_cons.mp inside with rfl | later
      · exact .inl ⟨join, rfl, brought⟩
      · exact .inr ⟨join, published, later, brought⟩

theorem known_deliver (on : ∀ e ∈ exits, p.leadsOn e.1 = true) :
    (exits.foldl (deliver p known) s).known = s.known := by
  induction exits generalizing s with
  | nil => rfl
  | cons e exits ih =>
    rw [List.forall_mem_cons] at on
    rw [List.foldl_cons, ih on.2, deliver]
    cases kind : p.isJoin e.1 with
    | false => rw [bring_plain on.1 kind]
    | true => rw [bring_join on.1 kind]

end Deliver

section Visit

/-- Destinations that are not gone on to are passed over. -/
private theorem foldl_bring (ds : List String) (s : State) :
    ds.foldl (bring p (extend known published)) s =
      ((ds.filter p.leadsOn).map fun d => (d, published)).foldl (deliver p known) s := by
  induction ds generalizing s with
  | nil => rfl
  | cons d ds ih =>
    cases on : p.leadsOn d with
    | false => simp [on, bring_of_not_leadsOn on, ih]
    | true => simp [on, deliver, ih]

private theorem clause_eq (p : Plan) (r : Registry) (known : List String) (c : Plan.Clause)
    (s : State) :
    clause p r known s c =
      { ((c.destinations.filter p.leadsOn).map fun d => (d, c.publish.map Binding.name)).foldl
          (deliver p known) s with
        all := extend s.all (extend known (c.publish.map Binding.name))
        found := record s.found (clauseProblems r known c) } := by
  rw [← deliver_update, ← foldl_bring, ← bind_snd]
  rfl

private theorem clauses_eq (p : Plan) (r : Registry) (known : List String)
    (clauses : List Plan.Clause) (s : State) :
    clauses.foldl (clause p r known) s =
      { (clauses.flatMap fun c => (c.destinations.filter p.leadsOn).map fun d =>
          (d, c.publish.map Binding.name)).foldl (deliver p known) s with
        all := clauses.foldl
          (fun all c => extend all (extend known (c.publish.map Binding.name))) s.all
        found := record s.found (clauses.flatMap (clauseProblems r known)) } := by
  induction clauses generalizing s with
  | nil => rfl
  | cons c clauses ih =>
    rw [List.foldl_cons, ih, clause_eq, deliver_update, List.flatMap_cons, List.foldl_append,
      List.flatMap_cons, record_append]
    rfl

theorem visit_skips (skips : s.Skips t brought) (queue : List (String × List String)) :
    visit p r { s with queue := queue } t brought = { s with queue := queue } := by
  obtain ⟨known, before, old⟩ := skips
  unfold visit
  rw [if_pos]
  unfold State.incoming at old
  simpa [before] using old

/-- A visit that is worked through. -/
theorem visit_eq (works : ¬s.Skips t brought) (queue : List (String × List String)) :
    visit p r { s with queue := queue } t brought =
      { (p.exits t).foldl (deliver p (s.learned t brought))
          { s with queue := queue, known := s.known.insert t (s.learned t brought) } with
        all := gathered p t (s.learned t brought) s.all
        found := record s.found (taskProblems r p t (s.learned t brought)) } := by
  have goes : ¬((s.known.get? t).isSome && (s.incoming t brought).all fun n =>
      ((s.known.get? t).getD []).contains n) = true := by
    intro stops
    rw [Bool.and_eq_true] at stops
    obtain ⟨known, before⟩ := Option.isSome_iff_exists.mp stops.1
    refine works ⟨known, before, fun n inside => ?_⟩
    have old := List.all_eq_true.mp stops.2 n inside
    simpa [before] using old
  have worked : visit p r { s with queue := queue } t brought = _ := if_neg goes
  rw [worked]
  unfold gathered taskProblems Plan.exits
  cases p.tasks.get? t with
  | none => rfl
  | some task =>
    refine (clauses_eq p r _ _ _).trans ?_
    unfold State.report
    rw [deliver_update, record_append]
    rfl

/-- What a visit that is worked through finds, as a set. -/
theorem visit_works (works : ¬s.Skips t brought) :
    ∃ all found, visit p r s t brought =
        { (p.exits t).foldl (deliver p (s.learned t brought))
            { s with known := s.known.insert t (s.learned t brought) } with
          all := all, found := found } ∧
      ∀ d, d ∈ found ↔ d ∈ s.found ∨ IsProblemOf r p t (s.learned t brought) d :=
  ⟨_, _, visit_eq works s.queue, fun _ => by rw [mem_record_iff, isProblemOf_iff]⟩

end Visit

/-- A visit with its place in the order of visits. -/
structure Turn where
  address : Address
  task : String
  names : List String

def Turn.entry (x : Turn) : String × List String :=
  (x.task, x.names)

/-- What a turn sends along ways out of its task: these turns come to the queue. -/
structure Sent (p : Plan) (x : Turn) (exits : List (String × List String)) (s s' : State)
    (sent : List Turn) : Prop where
  queue : s'.queue = s.queue ++ sent.map Turn.entry
  few : sent.length ≤ exits.length
  along : ∀ y ∈ sent, ∃ i published, exits[i]? = some (y.task, published) ∧
    y.address = x.address.way i ∧ y.names = extend x.names published
  sorted : sent.Pairwise fun y z => y.address < z.address
  plain : ∀ i d published, exits[i]? = some (d, published) → p.isJoin d = false →
    ∃ y ∈ sent, y.address = x.address.way i
  join : ∀ i d published, exits[i]? = some (d, published) → p.isJoin d = true →
    s.joins.contains d = true ∨ ∃ y ∈ sent, y.task = d ∧ y.address ≤ x.address.way i
  fresh : ∀ y ∈ sent, p.isJoin y.task = true → s.joins.contains y.task = false
  single : sent.Pairwise fun y z => p.isJoin y.task = true → y.task ≠ z.task

theorem mem_concat_iff {α : Type} {l : List α} {a b : α} : b ∈ l ++ [a] ↔ b ∈ l ∨ b = a := by
  rw [List.mem_append, List.mem_singleton]

theorem exists_mem_concat_iff {α : Type} {holds : α → Prop} {l : List α} {a : α} :
    (∃ b ∈ l ++ [a], holds b) ↔ (∃ b ∈ l, holds b) ∨ holds a := by
  simp [or_and_right, exists_or]

/-- Of the relations between the members of a list, those to a last one are left to show. -/
theorem pairwise_concat_iff {α : Type} {r : α → α → Prop} {l : List α} {a : α} :
    (l ++ [a]).Pairwise r ↔ l.Pairwise r ∧ ∀ b ∈ l, r b a := by
  simp [List.pairwise_append]

private theorem getElem?_concat_iff {α : Type} {l : List α} {a b : α} {i : Nat} :
    (l ++ [a])[i]? = some b ↔ l[i]? = some b ∨ i = l.length ∧ a = b := by
  rcases Nat.lt_trichotomy i l.length with less | rfl | more
  · simp [List.getElem?_append_left less, Nat.ne_of_lt less]
  · simp
  · have outside : (l ++ [a])[i]? = none := by
      rw [List.getElem?_eq_none_iff, List.length_append, List.length_singleton]
      omega
    have outside' : l[i]? = none := List.getElem?_eq_none_iff.mpr (Nat.le_of_lt more)
    simp [outside, outside', Nat.ne_of_gt more]

variable {x : Turn} {sent : List Turn}

/-- The next way sends a turn. -/
private theorem Sent.push {s₁ : State} (before : Sent p x exits s s₁ sent)
    (queue : s'.queue = s₁.queue ++ [(d, extend x.names published)])
    (absent : p.isJoin d = true → s.joins.contains d = false ∧ ∀ e ∈ exits, e.1 ≠ d) :
    Sent p x (exits ++ [(d, published)]) s s'
      (sent ++ [⟨x.address.way exits.length, d, extend x.names published⟩]) := by
  have index : ∀ {i e}, exits[i]? = some e → i < exits.length := fun inside =>
    (List.getElem?_eq_some_iff.mp inside).1
  refine ⟨?_, ?_, ?_, ?_, ?_, ?_, ?_, ?_⟩
  · rw [queue, before.queue, List.map_append, List.append_assoc]
    rfl
  · have few := before.few
    simp only [List.length_append, List.length_singleton]
    omega
  · intro y inside
    rcases mem_concat_iff.mp inside with old | rfl
    · obtain ⟨i, names, way, rest⟩ := before.along y old
      exact ⟨i, names, getElem?_concat_iff.mpr (.inl way), rest⟩
    · exact ⟨exits.length, published, getElem?_concat_iff.mpr (.inr ⟨rfl, rfl⟩), rfl, rfl⟩
  · refine pairwise_concat_iff.mpr ⟨before.sorted, fun y inside => ?_⟩
    obtain ⟨i, _, way, place, _⟩ := before.along y inside
    rw [place, Address.way_lt_way_iff]
    exact .inr ⟨rfl, index way⟩
  · intro i e names way plain
    rcases getElem?_concat_iff.mp way with old | ⟨rfl, _⟩
    · obtain ⟨y, inside, place⟩ := before.plain i e names old plain
      exact ⟨y, List.mem_append_left _ inside, place⟩
    · exact ⟨_, List.mem_concat_self, rfl⟩
  · intro i e names way join
    rcases getElem?_concat_iff.mp way with old | ⟨rfl, same⟩
    · refine (before.join i e names old join).imp_right fun ⟨y, inside, rest⟩ => ?_
      exact ⟨y, List.mem_append_left _ inside, rest⟩
    · cases same
      exact .inr ⟨_, List.mem_concat_self, rfl, le_refl _⟩
  · intro y inside join
    rcases mem_concat_iff.mp inside with old | rfl
    · exact before.fresh y old join
    · exact (absent join).1
  · refine pairwise_concat_iff.mpr ⟨before.single, fun y inside join same => ?_⟩
    dsimp only at same
    obtain ⟨i, _, way, _⟩ := before.along y inside
    exact (absent (same ▸ join)).2 _ (List.mem_of_getElem? way) same

/-- The next way leads to a join that is in the queue or was visited. -/
private theorem Sent.pass {s₁ : State} (before : Sent p x exits s s₁ sent)
    (queue : s'.queue = s₁.queue) (join : p.isJoin d = true)
    (present : s.joins.contains d = true ∨ ∃ e ∈ exits, e.1 = d) :
    Sent p x (exits ++ [(d, published)]) s s' sent := by
  refine
    { before with
      queue := queue.trans before.queue
      few := ?_
      along := ?_
      plain := ?_
      join := ?_ }
  · have few := before.few
    rw [List.length_append]
    omega
  · intro y inside
    obtain ⟨i, names, way, rest⟩ := before.along y inside
    exact ⟨i, names, getElem?_concat_iff.mpr (.inl way), rest⟩
  · intro i e names way plain
    rcases getElem?_concat_iff.mp way with old | ⟨_, same⟩
    · exact before.plain i e names old plain
    · cases same
      rw [plain] at join
      cases join
  · intro i e names way kind
    rcases getElem?_concat_iff.mp way with old | ⟨rfl, same⟩
    · exact before.join i e names old kind
    · cases same
      rcases present with held | ⟨⟨_, names'⟩, earlier, rfl⟩
      · exact .inl held
      · obtain ⟨j, way'⟩ := List.mem_iff_getElem?.mp earlier
        have less : j < exits.length := (List.getElem?_eq_some_iff.mp way').1
        refine (before.join j _ names' way' join).imp_right fun ⟨y, inside, task, place⟩ => ?_
        have further : x.address.way j < x.address.way exits.length :=
          Address.way_lt_way_iff.mpr (.inr ⟨rfl, less⟩)
        exact ⟨y, inside, task, place.trans (le_of_lt further)⟩

/-- What is delivered along ways out of a task comes to the queue as turns. -/
theorem exists_sent (on : ∀ e ∈ exits, p.leadsOn e.1 = true) :
    ∃ sent, Sent p x exits s (exits.foldl (deliver p x.names) s) sent := by
  induction exits using List.reverseRecOn with
  | nil => exact ⟨[], by simp, Nat.le_refl 0, nofun, .nil, nofun, nofun, nofun, .nil⟩
  | append_singleton exits e ih =>
    obtain ⟨d, published⟩ := e
    have on' : ∀ e ∈ exits, p.leadsOn e.1 = true := fun e inside =>
      on e (List.mem_append_left _ inside)
    have here : p.leadsOn d = true := on _ (List.mem_concat_self)
    obtain ⟨sent, before⟩ := ih on'
    have held : (exits.foldl (deliver p x.names) s).joins.contains d = true ↔ _ :=
      contains_deliver on'
    rw [List.foldl_append]
    cases kind : p.isJoin d with
    | false =>
      refine ⟨_, before.push ?_ ?_⟩
      · simp [deliver, bring_plain here kind]
      · rw [kind]
        exact nofun
    | true =>
      by_cases present : (exits.foldl (deliver p x.names) s).joins.contains d = true
      · refine ⟨_, before.pass (by simp [deliver, bring_join here kind, present]) kind ?_⟩
        exact (held.mp present).imp_right fun ⟨_, names, inside⟩ => ⟨_, inside, rfl⟩
      · refine ⟨_, before.push (by simp [deliver, bring_join here kind, present]) fun _ => ⟨?_, ?_⟩⟩
        · rw [← Bool.not_eq_true]
          exact fun old => present (held.mpr (.inl old))
        · rintro ⟨_, names⟩ inside rfl
          exact present (held.mpr (.inr ⟨kind, names, inside⟩))

end Workflow.Inspection.Vocabulary

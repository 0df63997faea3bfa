import Mathlib.Logic.Relator
import Workflow.Proofs.Inspection.Vocabulary.Widening
import Workflow.Proofs.Worklist

/-!
Two runs of the analysis, the second of which starts with more known names. A visit of the first run
that brings a task nothing but such names has nothing to match it in the second run, but it has no
effect either: it finds nothing that was not found before, and what it sends has come before it
(`Settled`). All other visits are the same in both runs, so that these can be followed side by side
(`mirror_runs`).
-/

namespace Workflow.Inspection.Vocabulary

variable {p : Plan} {r : Registry} {X : List String} {s s' : State} {t u d : String}
  {names names' known known' brought : List String} {e : String × List String}
  {exits rest q q' : List (String × List String)}
  {come come' : String → List String → Prop}

section Settled

/-- The task was visited, and knows these names, apart from those of `X`. -/
def Knows (X : List String) (s : State) (t : String) (names : List String) : Prop :=
  ∃ known, s.known.get? t = some known ∧ names ⊆ known ++ X

/-- These names, apart from those of `X`, have come to the task or are to come to it. -/
def Coming (p : Plan) (X : List String) (s : State) (t : String) (names : List String) : Prop :=
  (p.isJoin t = true → ∃ held, s.joins.get? t = some held ∧ names ⊆ held ++ X) ∧
    (p.isJoin t = false → Knows X s t names ∨ ∃ brought, (t, brought) ∈ s.queue ∧ names ⊆ brought ++ X)

/-- What the visits have left behind: what a visited task knows is on its way along the ways out of it,
and its problems are found. -/
structure Settled (r : Registry) (p : Plan) (X : List String) (s : State) : Prop where
  joins : ∀ d, s.joins.contains d = true → p.isJoin d = true
  followed : ∀ t known, s.known.get? t = some known →
    ∀ e ∈ p.exits t, Coming p X s e.1 (extend known e.2)
  recorded : ∀ t known, s.known.get? t = some known → taskProblems r p t known ⊆ s.found
  gathered : ∀ t known, s.known.get? t = some known → gathered p t known [] ⊆ s.all

theorem Coming.mono (coming : Coming p X s t names) (fewer : names' ⊆ names ++ X) :
    Coming p X s t names' := by
  refine ⟨fun join => ?_, fun plain => ?_⟩
  · obtain ⟨held, found, inside⟩ := coming.1 join
    exact ⟨held, found, subset_append_trans fewer inside⟩
  · rcases coming.2 plain with ⟨known, found, inside⟩ | ⟨brought, waits, inside⟩
    · exact .inl ⟨known, found, subset_append_trans fewer inside⟩
    · exact .inr ⟨brought, waits, subset_append_trans fewer inside⟩

/-- Names that are brought come to the task, and no others are lost. -/
theorem coming_bring (on : p.leadsOn d = true)
    (before : Coming p X s t names ∨ t = d ∧ names = known) :
    Coming p X (bring p known s d) t names := by
  cases kind : p.isJoin d with
  | false =>
    rw [bring_plain on kind]
    rcases before with coming | ⟨rfl, rfl⟩
    · refine ⟨coming.1, fun plain => (coming.2 plain).imp_right ?_⟩
      exact fun ⟨brought, waits, inside⟩ => ⟨brought, List.mem_append_left _ waits, inside⟩
    · refine ⟨fun join => absurd (kind.symm.trans join) Bool.noConfusion, fun _ => ?_⟩
      exact .inr ⟨names, List.mem_concat_self, List.subset_append_left _ _⟩
  | true =>
    rw [bring_join on kind]
    refine ⟨fun _ => ?_, fun plain => ?_⟩
    · dsimp only
      rw [Table.get?_insert]
      rcases before with coming | ⟨rfl, rfl⟩
      · split
        next same =>
          subst same
          obtain ⟨held, found, inside⟩ := coming.1 kind
          refine ⟨_, rfl, subset_append_trans inside fun n old => ?_⟩
          rw [found]
          exact List.mem_append_left _ (mem_extend.mpr (.inl old))
        next other => exact coming.1 ‹_›
      · rw [if_pos rfl]
        exact ⟨_, rfl, fun n new => List.mem_append_left _ (mem_extend.mpr (.inr new))⟩
    · rcases before with coming | ⟨rfl, rfl⟩
      · refine (coming.2 plain).imp_right ?_
        exact fun ⟨brought, waits, inside⟩ => ⟨brought, List.mem_append_left _ waits, inside⟩
      · rw [kind] at plain
        cases plain

theorem coming_deliver (on : ∀ e ∈ exits, p.leadsOn e.1 = true)
    (before : Coming p X s t names ∨ ∃ e ∈ exits, t = e.1 ∧ names = extend known e.2) :
    Coming p X (exits.foldl (deliver p known) s) t names := by
  induction exits generalizing s with
  | nil => simpa using before
  | cons e exits ih =>
    rw [List.forall_mem_cons] at on
    rw [List.foldl_cons]
    apply ih on.2
    rcases before with coming | ⟨e', inside, same⟩
    · exact .inl (coming_bring on.1 (.inl coming))
    · rcases List.mem_cons.mp inside with rfl | later
      · exact .inl (coming_bring on.1 (.inr same))
      · exact .inr ⟨e', later, same⟩

/-- A task that is no join is brought what the visit brings. -/
theorem Settled.incoming_eq (settled : Settled r p X s) (plain : p.isJoin t = false)
    (brought : List String) : s.incoming t brought = brought := by
  unfold State.incoming
  cases held : s.joins.get? t with
  | none => rfl
  | some names =>
    have join := settled.joins t (by rw [Table.contains, held]; rfl)
    rw [plain] at join
    cases join

/-- A visit that is taken out of the queue leaves its names behind. -/
theorem Coming.pop (coming : Coming p X s u names) (next : s.queue = (t, brought) :: rest)
    (joins : s'.joins = s.joins) (queue : s'.queue = rest)
    (more : ∀ u names, Knows X s u names → Knows X s' u names)
    (taken : p.isJoin t = false → Knows X s' t brought) : Coming p X s' u names := by
  refine ⟨fun join => by rw [joins]; exact coming.1 join, fun plain => ?_⟩
  rcases coming.2 plain with knows | ⟨brought', waits, inside⟩
  · exact .inl (more u names knows)
  · rw [next] at waits
    rcases List.mem_cons.mp waits with same | later
    · cases same
      obtain ⟨known, found, part⟩ := taken plain
      exact .inl ⟨known, found, subset_append_trans inside part⟩
    · rw [queue]
      exact .inr ⟨brought', later, inside⟩

theorem Settled.knows_of_skips (settled : Settled r p X s) (skips : s.Skips t brought)
    (plain : p.isJoin t = false) : Knows X s t brought := by
  obtain ⟨known, found, old⟩ := skips
  rw [settled.incoming_eq plain] at old
  exact ⟨known, found, fun n inside => List.mem_append_left _ (old n inside)⟩

theorem Settled.drop (settled : Settled r p X s) (next : s.queue = (t, brought) :: rest)
    (skips : s.Skips t brought) : Settled r p X { s with queue := rest } :=
  { settled with
    followed := fun u known found e exit => (settled.followed u known found e exit).pop next rfl rfl
      (fun _ _ => id) (settled.knows_of_skips skips) }

/-- What a task learns in a visit that is worked through. -/
theorem knows_insert (knows : Knows X s u names) (queue : List (String × List String)) :
    Knows X { s with queue := queue, known := s.known.insert t (s.learned t brought) } u names := by
  obtain ⟨known, found, inside⟩ := knows
  unfold Knows
  simp only [Table.get?_insert]
  split
  next same =>
    subst same
    refine ⟨_, rfl, subset_append_trans inside fun n old => ?_⟩
    unfold State.learned
    rw [found]
    exact List.mem_append_left _ (mem_extend.mpr (.inl old))
  next => exact ⟨known, found, inside⟩

theorem Settled.knows_learned (settled : Settled r p X s) (plain : p.isJoin t = false)
    (queue : List (String × List String)) :
    Knows X { s with queue := queue, known := s.known.insert t (s.learned t brought) } t brought := by
  refine ⟨_, by rw [Table.get?_insert, if_pos rfl], fun n inside => List.mem_append_left _ ?_⟩
  unfold State.learned
  rw [settled.incoming_eq plain]
  exact mem_extend.mpr (.inr inside)

/-- To work a visit through settles what its task knows. -/
theorem Settled.work (settled : Settled r p X s) (next : s.queue = (t, brought) :: rest)
    (works : ¬s.Skips t brought) :
    Settled r p X (visit p r { s with queue := rest } t brought) := by
  have on := Plan.leadsOn_of_mem_exits (p := p) (t := t)
  rw [visit_eq works]
  have moved : ∀ {u names}, Coming p X s u names →
      Coming p X { s with queue := rest, known := s.known.insert t (s.learned t brought) } u names :=
    fun coming => coming.pop next rfl rfl (fun _ _ knows => knows_insert knows rest)
      fun plain => settled.knows_learned plain rest
  -- What a task knows was known before, or it is what the visited task has learned.
  have cases_ : ∀ {u known}, ((p.exits t).foldl (deliver p (s.learned t brought))
      { s with queue := rest, known := s.known.insert t (s.learned t brought) }).known.get? u =
        some known → u = t ∧ known = s.learned t brought ∨ s.known.get? u = some known := by
    intro u known found
    rw [known_deliver on, Table.get?_insert] at found
    split at found
    next same => exact .inl ⟨same, (Option.some.inj found).symm⟩
    next => exact .inr found
  constructor
  · intro d held
    rcases (contains_deliver on).mp held with old | ⟨join, _⟩
    · exact settled.joins d old
    · exact join
  · intro u known found e exit
    rcases cases_ found with ⟨rfl, rfl⟩ | found
    · exact coming_deliver on (.inr ⟨e, exit, rfl, rfl⟩)
    · exact coming_deliver on (.inl (moved (settled.followed u known found e exit)))
  · intro u known found d inside
    refine mem_record_iff.mpr ?_
    rcases cases_ found with ⟨rfl, rfl⟩ | found
    · exact .inr inside
    · exact .inl (settled.recorded u known found inside)
  · intro u known found n inside
    rcases cases_ found with ⟨rfl, rfl⟩ | found
    · refine mem_gathered_iff.mpr (.inr ?_)
      exact (mem_gathered_iff.mp inside).resolve_left List.not_mem_nil
    · exact mem_gathered_iff.mpr (.inl (settled.gathered u known found inside))

end Settled

section Mirror

/-- Apart from those of `X`, the names have come, or the visit to `t` brings them. -/
def OrBy (X : List String) (come : String → List String → Prop) (t : String) (names : List String)
    (u : String) (m : List String) : Prop :=
  come u m ∨ u = t ∧ m ⊆ names ++ X

/-- The second queue is the first one with wider names, without some visits to tasks that are no joins.
What these visits bring has come before, where `come` says what comes before the queue. -/
inductive Mirrors (p : Plan) (X : List String) : (String → List String → Prop) →
    List (String × List String) → List (String × List String) → Prop where
  | nil {come : String → List String → Prop} : Mirrors p X come [] []
  | both {come : String → List String → Prop} {t : String} {names names' : List String}
      {q q' : List (String × List String)} (wide : Widened X names names')
      (rest : Mirrors p X (OrBy X come t names) q q') :
      Mirrors p X come ((t, names) :: q) ((t, names') :: q')
  | lone {come : String → List String → Prop} {t : String} {names : List String}
      {q q' : List (String × List String)} (plain : p.isJoin t = false) (before : come t names)
      (rest : Mirrors p X (OrBy X come t names) q q') :
      Mirrors p X come ((t, names) :: q) q'

theorem Mirrors.mono (mirrors : Mirrors p X come q q')
    (more : ∀ u m, p.isJoin u = false → come u m → come' u m) : Mirrors p X come' q q' := by
  induction mirrors generalizing come' with
  | nil => exact .nil
  | both wide _ ih =>
    exact .both wide (ih fun u m plain => Or.imp_left (more u m plain))
  | lone plain before _ ih =>
    exact .lone plain (more _ _ plain before) (ih fun u m plain => Or.imp_left (more u m plain))

theorem Mirrors.append {a a' : List (String × List String)} (mirrors : Mirrors p X come q q')
    (behind : Mirrors p X
      (fun u m => come u m ∨ ∃ brought, (u, brought) ∈ q ∧ m ⊆ brought ++ X) a a') :
    Mirrors p X come (q ++ a) (q' ++ a') := by
  have shift : ∀ {come : String → List String → Prop} {t names q},
      Mirrors p X (fun u m => come u m ∨
        ∃ brought, (u, brought) ∈ (t, names) :: q ∧ m ⊆ brought ++ X) a a' →
      Mirrors p X (fun u m => OrBy X come t names u m ∨
        ∃ brought, (u, brought) ∈ q ∧ m ⊆ brought ++ X) a a' := by
    intro come t names q behind
    refine behind.mono fun u m _ before => ?_
    rcases before with before | ⟨brought, inside, part⟩
    · exact .inl (.inl before)
    · rcases List.mem_cons.mp inside with same | later
      · cases same
        exact .inl (.inr ⟨rfl, part⟩)
      · exact .inr ⟨brought, later, part⟩
  induction mirrors with
  | nil => exact behind.mono fun u m _ before => by simpa using before
  | both wide _ ih => exact .both wide (ih (shift behind))
  | lone plain before _ ih => exact .lone plain before (ih (shift behind))

/-- The head of the first queue is the head of the second, or brings what has come before. -/
theorem Mirrors.cases_cons (mirrors : Mirrors p X come ((t, names) :: q) q') :
    (∃ names' rest', q' = (t, names') :: rest' ∧ Widened X names names' ∧
      Mirrors p X (OrBy X come t names) q rest') ∨
    p.isJoin t = false ∧ come t names ∧
      Mirrors p X (OrBy X come t names) q q' := by
  cases mirrors with
  | both wide rest => exact .inl ⟨_, _, rfl, wide, rest⟩
  | lone plain before rest => exact .inr ⟨plain, before, rest⟩

/-- What the turns to come read is the same in both states, apart from the names of `X`. -/
structure Abreast (p : Plan) (X : List String) (s s' : State) : Prop where
  queue : Mirrors p X (Knows X s) s.queue s'.queue
  joins : ∀ d, Option.Rel (Widened X) (s.joins.get? d) (s'.joins.get? d)

theorem contains_eq_of_rel {t t' : Table (List String)}
    (same : Option.Rel (Widened X) (t.get? d) (t'.get? d)) : t.contains d = t'.contains d := by
  unfold Table.contains
  generalize t.get? d = held, t'.get? d = held' at same
  cases same <;> rfl

theorem rel_insert {t t' : Table (List String)}
    (same : ∀ d, Option.Rel (Widened X) (t.get? d) (t'.get? d)) (wide : Widened X names names')
    (u : String) :
    Option.Rel (Widened X) ((t.insert d names).get? u) ((t'.insert d names').get? u) := by
  rw [Table.get?_insert, Table.get?_insert]
  split
  next => exact .some wide
  next => exact same u

theorem rel_extend_left {o : Option (List String)} (same : Option.Rel (Widened X) (some known) o)
    (old : names ⊆ known ++ X) : Option.Rel (Widened X) (some (extend known names)) o := by
  cases same with
  | some wide => exact .some (widened_extend_left wide old)

theorem Abreast.bring (abreast : Abreast p X s s') (on : p.leadsOn d = true)
    (wide : Widened X names names') : Abreast p X (bring p names s d) (bring p names' s' d) := by
  cases kind : p.isJoin d with
  | false =>
    rw [bring_plain on kind, bring_plain on kind]
    exact ⟨abreast.queue.append (.both wide .nil), abreast.joins⟩
  | true =>
    rw [bring_join on kind, bring_join on kind, contains_eq_of_rel (abreast.joins d)]
    refine ⟨abreast.queue.append ?_,
      rel_insert abreast.joins (widened_extend_getD (abreast.joins d) wide)⟩
    split
    · exact .nil
    · exact .both wide .nil

/-- What has come before has no effect but on names of `X`. -/
theorem Abreast.bringAgain (abreast : Abreast p X s s') (on : p.leadsOn d = true)
    (coming : Coming p X s d names) : Abreast p X (Vocabulary.bring p names s d) s' := by
  cases kind : p.isJoin d with
  | false =>
    rw [bring_plain on kind]
    have queue := abreast.queue.append (.lone kind (coming.2 kind) .nil)
    rw [List.append_nil] at queue
    exact ⟨queue, abreast.joins⟩
  | true =>
    rw [bring_join on kind]
    obtain ⟨held, found, part⟩ := coming.1 kind
    have known : s.joins.contains d = true := by rw [Table.contains, found]; rfl
    refine ⟨?_, fun u => ?_⟩
    · simp only [known, if_true, List.append_nil]
      exact abreast.queue
    · dsimp only
      rw [Table.get?_insert, found]
      split
      next same =>
        subst same
        exact rel_extend_left (found ▸ abreast.joins u) part
      next => exact abreast.joins u

/-- Both states deliver alike. -/
theorem Abreast.deliver (abreast : Abreast p X s s') (on : ∀ e ∈ exits, p.leadsOn e.1 = true)
    (wide : Widened X known known') :
    Abreast p X (exits.foldl (deliver p known) s) (exits.foldl (deliver p known') s') := by
  induction exits generalizing s s' with
  | nil => exact abreast
  | cons e exits ih =>
    rw [List.forall_mem_cons] at on
    exact ih (abreast.bring on.1 (widened_extend_same wide e.2)) on.2

theorem Abreast.deliverAgain (abreast : Abreast p X s s') (on : ∀ e ∈ exits, p.leadsOn e.1 = true)
    (coming : ∀ e ∈ exits, Coming p X s e.1 (extend known e.2)) :
    Abreast p X (exits.foldl (Vocabulary.deliver p known) s) s' := by
  induction exits generalizing s with
  | nil => exact abreast
  | cons e exits ih =>
    rw [List.forall_mem_cons] at on coming
    refine ih (abreast.bringAgain on.1 coming.1) on.2 fun e' later => ?_
    exact coming_bring on.1 (.inl (coming.2 e' later))

/-- The problems that are found in spite of the names of `X`: those that were found first, and those of
other variables. -/
def keeps (X : List String) (first : List Diagnostic) (d : Diagnostic) : Bool :=
  first.contains d || !about X d

/-- The second state is the first one with more known names. -/
structure Mirror (r : Registry) (p : Plan) (X : List String) (first : List Diagnostic)
    (s s' : State) : Prop where
  abreast : Abreast p X s s'
  known : ∀ t, Option.Rel (Widened X) (s.known.get? t) (s'.known.get? t)
  all : Widened X s.all s'.all
  found : s'.found = s.found.filter (keeps X first)
  first : first ⊆ s.found
  settled : Settled r p X s

variable {first : List Diagnostic}

theorem filter_record_keeps {found ds : List Diagnostic} (old : first ⊆ found) :
    (record found ds).filter (keeps X first) =
      record (found.filter (keeps X first)) (ds.filter fun d => !about X d) := by
  apply filter_record
  · intro d fresh
    unfold keeps
    rw [fresh, Bool.or_true]
  · intro d kept stale
    unfold keeps at kept
    rw [stale, Bool.or_false, List.contains_iff_mem] at kept
    exact old kept

/-- What came before the visit that is taken out of the queue, or with it, is known after it. -/
theorem Mirror.moved (mirror : Mirror r p X first s s')
    (mirrors : Mirrors p X (OrBy X (Knows X s) t brought) rest q') :
    Mirrors p X (Knows X
      { s with queue := rest, known := s.known.insert t (s.learned t brought) }) rest q' := by
  refine mirrors.mono fun u m plain before => ?_
  rcases before with knows | ⟨rfl, part⟩
  · exact knows_insert knows rest
  · obtain ⟨known, found, inside⟩ := mirror.settled.knows_learned plain rest
    exact ⟨known, found, subset_append_trans part inside⟩

/-- A visit that brings nothing new. -/
theorem Mirror.drop (mirror : Mirror r p X first s s') (next : s.queue = (t, brought) :: rest)
    (skips : s.Skips t brought)
    (mirrors : Mirrors p X (OrBy X (Knows X s) t brought) rest q') :
    Mirror r p X first { s with queue := rest } { s' with queue := q' } := by
  refine { mirror with
    abreast := ⟨mirrors.mono fun u m plain before => ?_, mirror.abreast.joins⟩
    settled := mirror.settled.drop next skips }
  rcases before with knows | ⟨rfl, part⟩
  · exact knows
  · obtain ⟨known, found, inside⟩ := mirror.settled.knows_of_skips skips plain
    exact ⟨known, found, subset_append_trans part inside⟩

/-- A visit that is worked through only for names of `X`. -/
theorem Mirror.workAgain (mirror : Mirror r p X first s s')
    (next : s.queue = (t, brought) :: rest) (works : ¬s.Skips t brought)
    (visited : s.known.get? t = some known) (old : s.incoming t brought ⊆ known ++ X)
    (mirrors : Mirrors p X (OrBy X (Knows X s) t brought) rest q') :
    Mirror r p X first (visit p r { s with queue := rest } t brought) { s' with queue := q' } := by
  have settled := mirror.settled.work next works
  have on := Plan.leadsOn_of_mem_exits (p := p) (t := t)
  rw [visit_eq works] at settled ⊢
  have learned : s.learned t brought = extend known (s.incoming t brought) := by
    unfold State.learned
    rw [visited]
    rfl
  have part : s.learned t brought ⊆ known ++ X := by
    intro n inside
    rw [learned, mem_extend] at inside
    exact inside.elim (List.mem_append_left X) fun new => old new
  -- The task knows no less than at its visit before, so its problems were found then,
  have problems : taskProblems r p t (s.learned t brought) ⊆ s.found := by
    refine List.Subset.trans (taskProblems_subset ?_) (mirror.settled.recorded t known visited)
    rw [learned]
    exact fun n inside => mem_extend.mpr (.inl inside)
  -- and apart from names of `X`, what it sends was sent then.
  have coming : ∀ e ∈ p.exits t, Coming p X
      { s with queue := rest, known := s.known.insert t (s.learned t brought) } e.1
        (extend (s.learned t brought) e.2) := by
    intro e exit
    have before := mirror.settled.followed t known visited e exit
    have fewer : extend (s.learned t brought) e.2 ⊆ extend known e.2 ++ X := by
      intro n inside
      rw [List.mem_append, mem_extend, or_right_comm]
      rcases mem_extend.mp inside with knows | published
      · exact .inl (List.mem_append.mp (part knows))
      · exact .inr published
    exact (before.mono fewer).pop next rfl rfl (fun _ _ knows => knows_insert knows rest)
      fun plain => mirror.settled.knows_learned plain rest
  have before : Abreast p X
      { s with queue := rest, known := s.known.insert t (s.learned t brought) }
      { s' with queue := q' } := ⟨mirror.moved mirrors, mirror.abreast.joins⟩
  have abreast := before.deliverAgain on coming
  refine ⟨⟨abreast.queue, abreast.joins⟩, fun u => ?_, ?_, ?_, ?_, settled⟩
  · dsimp only
    rw [known_deliver on, Table.get?_insert]
    split
    next same =>
      subst same
      rw [learned]
      exact rel_extend_left (visited ▸ mirror.known u) old
    next => exact mirror.known u
  · intro n
    have gathered := @mirror.settled.gathered t known visited n
    rw [mem_gathered_iff] at gathered
    rw [mirror.all, mem_gathered_iff]
    constructor
    · exact Or.imp_left .inl
    · rintro ((before | ⟨task, found, c, clause, knows | published⟩) | new)
      · exact .inl before
      · rcases List.mem_append.mp (part knows) with before | new
        · exact .inl (gathered (.inr ⟨task, found, c, clause, .inl before⟩))
        · exact .inr new
      · exact .inl (gathered (.inr ⟨task, found, c, clause, .inr published⟩))
      · exact .inr new
  · dsimp only
    rw [record_of_subset problems]
    exact mirror.found
  · dsimp only
    rw [record_of_subset problems]
    exact mirror.first

theorem Mirror.learned (mirror : Mirror r p X first s s') {brought' : List String}
    (wide : Widened X brought brought') (t : String) :
    Widened X (s.learned t brought) (s'.learned t brought') :=
  widened_extend_getD (mirror.known t) (widened_getD (mirror.abreast.joins t) wide)

/-- A visit that is worked through in both runs. -/
theorem Mirror.work (mirror : Mirror r p X first s s') {brought' : List String}
    (next : s.queue = (t, brought) :: rest) (works : ¬s.Skips t brought)
    (works' : ¬s'.Skips t brought') (wide : Widened X brought brought')
    (mirrors : Mirrors p X (OrBy X (Knows X s) t brought) rest q') :
    Mirror r p X first (visit p r { s with queue := rest } t brought)
      (visit p r { s' with queue := q' } t brought') := by
  have settled := mirror.settled.work next works
  have on := Plan.leadsOn_of_mem_exits (p := p) (t := t)
  have learned := mirror.learned wide t
  rw [visit_eq works] at settled ⊢
  rw [visit_eq works']
  have before : Abreast p X
      { s with queue := rest, known := s.known.insert t (s.learned t brought) }
      { s' with queue := q', known := s'.known.insert t (s'.learned t brought') } :=
    ⟨mirror.moved mirrors, mirror.abreast.joins⟩
  have abreast := before.deliver on learned
  refine ⟨⟨abreast.queue, abreast.joins⟩, ?_, widened_gathered learned mirror.all, ?_, ?_, settled⟩
  · intro u
    dsimp only
    rw [known_deliver on, known_deliver on]
    exact rel_insert mirror.known learned u
  · dsimp only
    rw [filter_record_keeps mirror.first, widened_taskProblems learned, mirror.found]
  · exact fun d inside => mem_record_iff.mpr (.inl (mirror.first inside))

/-- Where the second run has a visit that brings nothing new, what the first one brings was known, apart
from names of `X`. -/
theorem Mirror.exists_known (mirror : Mirror r p X first s s') {brought' : List String}
    (wide : Widened X brought brought') (skips : s'.Skips t brought') :
    ∃ known, s.known.get? t = some known ∧ s.incoming t brought ⊆ known ++ X := by
  obtain ⟨known', found', old⟩ := skips
  have rel := mirror.known t
  rw [found'] at rel
  generalize found : s.known.get? t = held at rel
  cases rel with
  | @some known _ wider =>
    refine ⟨known, rfl, fun n inside => ?_⟩
    have incoming := (widened_getD (mirror.abreast.joins t) wide).subset inside
    exact wider.subset_append (old n incoming)

/-- Where the first state skips a visit, so does the second. -/
theorem Mirror.skips (mirror : Mirror r p X first s s') {brought' : List String}
    (wide : Widened X brought brought') (skips : s.Skips t brought) : s'.Skips t brought' := by
  obtain ⟨known, found, old⟩ := skips
  have rel := mirror.known t
  rw [found] at rel
  generalize found' : s'.known.get? t = held at rel
  cases rel with
  | @some _ known' wider =>
    refine ⟨known', found', fun n inside => (wider n).mpr ?_⟩
    exact ((widened_getD (mirror.abreast.joins t) wide n).mp inside).imp_left (old n)

/-- A step of the first run is matched by at most one step of the second run. -/
theorem Mirror.takes (mirror : Mirror r p X first s s') {f : State}
    (taken : Takes (step p r) s f) :
    ∃ f', Runs (step p r) s' f' ∧ Mirror r p X first f f' := by
  unfold Takes step at taken
  cases next : s.queue with
  | nil => simp [next] at taken
  | cons entry rest =>
    obtain ⟨t, brought⟩ := entry
    simp only [next, Except.ok.injEq, Option.some.injEq] at taken
    subst taken
    have queue := mirror.abreast.queue
    rw [next] at queue
    rcases queue.cases_cons with ⟨brought', rest', next', wide, mirrors⟩ | ⟨plain, before, mirrors⟩
    · have matched : Takes (step p r) s' (visit p r { s' with queue := rest' } t brought') := by
        unfold Takes step
        rw [next']
      refine ⟨_, .single matched, ?_⟩
      by_cases skips : s.Skips t brought
      · rw [visit_skips skips, visit_skips (mirror.skips wide skips)]
        exact mirror.drop next skips mirrors
      · by_cases skips' : s'.Skips t brought'
        · rw [visit_skips skips']
          obtain ⟨known, visited, old⟩ := mirror.exists_known wide skips'
          exact mirror.workAgain next skips visited old mirrors
        · exact mirror.work next skips skips' wide mirrors
    · -- The second run has no such visit.
      refine ⟨s', .refl, ?_⟩
      by_cases skips : s.Skips t brought
      · rw [visit_skips skips]
        exact mirror.drop next skips mirrors
      · obtain ⟨known, visited, old⟩ := before
        rw [← mirror.settled.incoming_eq plain brought] at old
        exact mirror.workAgain next skips visited old mirrors

/-- Every run has a mirror. -/
theorem mirror_runs (mirror : Mirror r p X first s s') {f : State} (run : Runs (step p r) s f) :
    ∃ f', Runs (step p r) s' f' ∧ Mirror r p X first f f' := by
  induction run with
  | refl => exact ⟨s', .refl, mirror⟩
  | tail _ taken ih =>
    obtain ⟨f', run', mirror'⟩ := ih
    obtain ⟨g', more, mirror''⟩ := mirror'.takes taken
    exact ⟨g', run'.trans more, mirror''⟩

end Mirror

end Workflow.Inspection.Vocabulary

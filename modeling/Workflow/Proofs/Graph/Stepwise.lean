import Mathlib.Logic.Function.Basic
import Workflow.Proofs.Graph.Reading

/-!
Operations look by look and change by change. Beside its nodes a graph keeps a table of where each id
stands; what is looked up is looked up there, a node that is put in is entered there too, and a node is
changed at the place that the table gives. A failure stops an operation where it is, with what it has
changed by then.
-/

namespace Workflow.Graph

variable {g : Graph} {id : String}

/-- A graph with the table of its ids. Nothing makes the table fit the nodes but the operations. -/
structure Indexed where
  graph : Graph
  index : String → Option Nat

def Indexed.empty : Indexed :=
  ⟨.empty, fun _ => none⟩

/-- Puts a node in at the next place, which is entered under its id. -/
def Indexed.insert (s : Indexed) (n : Node) : Indexed where
  graph := { s.graph with nodes := s.graph.nodes ++ [n] }
  index := Function.update s.index n.id (some s.graph.nodes.length)

/-- Where the node with that id stands, if it is there. -/
def index (g : Graph) (id : String) : Option Nat :=
  if g.contains id then some (g.position id) else none

/-- The graph with the table that its nodes state. -/
def indexed (g : Graph) : Indexed :=
  ⟨g, g.index⟩

@[simp] theorem graph_indexed (g : Graph) : g.indexed.graph = g := rfl

@[simp] theorem index_indexed (g : Graph) : g.indexed.index = g.index := rfl

def seek (id : String) : EStateM Failure Indexed Nat := do
  match (← get).index id with
  | some place => return place
  | none => throw (.unknownTask id)

/-- Looks a node up, and puts it in if it is missing. -/
def enter (id : String) : EStateM Failure Indexed Nat := do
  match (← get).index id with
  | some place => return place
  | none =>
    let place := (← get).graph.nodes.length
    modify fun s => s.insert (.ofId id)
    return place

/-- Changes the nodes or the edges, and leaves the table as it is. -/
def change (f : Graph → Graph) : EStateM Failure Indexed Unit :=
  modify fun s => { s with graph := f s.graph }

def changeNode (place : Nat) (f : Node → Node) : EStateM Failure Indexed Unit :=
  change fun g => { g with nodes := g.nodes.modify place f }

def Operation.carryOut : Operation → EStateM Failure Indexed Answer
  | .addTask id a => do
    let place ← enter id
    changeNode place fun n => n.merge a
    return .place place
  | .updateTask id a => do
    let place ← seek id
    changeNode place fun n => n.merge a
    return .done
  | .setBarrier id barrier => do
    let place ← seek id
    changeNode place fun n => { n with barrier := barrier }
    return .done
  | .addTransition source destination criteria ordinal => do
    let _ ← enter source
    let _ ← enter destination
    let edges := (← get).graph.between source destination
    match edges.filter fun e => e.criteria == criteria with
    | [] =>
      let key := freshKey edges
      change fun g => { g with edges := g.edges ++ [⟨source, destination, key, criteria, ordinal⟩] }
      return .key key
    | [e] =>
      change fun g => g.modifyEdge source destination e.key fun e => e.withOrdinal ordinal
      return .key e.key
    | matching => throw (.ambiguous source destination matching.length)
  | .updateTransition source destination key criteria ordinal => do
    let _ ← seek source
    let _ ← seek destination
    if ((← get).graph.between source destination).any fun e => e.key == key then
      change fun g => g.modifyEdge source destination key fun e =>
        { e with criteria := criteria }.withOrdinal ordinal
      return .done
    else throw (.noTransition source destination)

/-- The graph and the table behind several operations, whether they fail or not. -/
def Indexed.session (s : Indexed) (os : List Operation) : Indexed :=
  os.foldl (fun s o =>
    match o.carryOut.run s with
    | .ok _ s => s
    | .error _ s => s) s

theorem run_bind_of_ok {α β : Type} {x : EStateM Failure Indexed α}
    {k : α → EStateM Failure Indexed β} {s s' : Indexed} {a : α} (ran : x.run s = .ok a s') :
    (x >>= k).run s = (k a).run s' := by
  unfold EStateM.run at ran ⊢
  simp only [bind, EStateM.bind, ran]

/-- What fails is not gone on from, and leaves what it has done. -/
theorem run_bind_of_error {α β : Type} {x : EStateM Failure Indexed α}
    {k : α → EStateM Failure Indexed β} {s s' : Indexed} {f : Failure} (ran : x.run s = .error f s') :
    (x >>= k).run s = .error f s' := by
  unfold EStateM.run at ran ⊢
  simp only [bind, EStateM.bind, ran]

theorem run_get (s : Indexed) : (get : EStateM Failure Indexed Indexed).run s = .ok s s :=
  rfl

/-- The place of a node is that of its id among the ids. -/
theorem position_eq_idxOf (g : Graph) (id : String) : g.position id = g.ids.idxOf id := by
  unfold position ids List.idxOf
  rw [List.findIdx_map]
  rfl

/-- Where no two nodes share an id, an id is placed where the one node is that has it. -/
theorem position_id_getElem (unique : g.ids.Nodup) {i : Nat} (bound : i < g.nodes.length) :
    g.position (g.nodes[i]).id = i := by
  have inside : i < g.ids.length := by simpa [ids] using bound
  have place := unique.idxOf_getElem i inside
  rw [position_eq_idxOf]
  simpa [ids] using place

theorem index_of_mem (known : id ∈ g.ids) : g.index id = some (g.position id) :=
  if_pos (contains_iff.mpr known)

theorem index_of_not_mem (unknown : id ∉ g.ids) : g.index id = none :=
  if_neg (by rw [contains_iff]; exact unknown)

/-- The table is about the ids only. -/
theorem index_congr {g' : Graph} (same : g'.ids = g.ids) : g'.index = g.index := by
  funext id
  by_cases known : id ∈ g.ids
  · rw [index_of_mem known, index_of_mem (same ▸ known), position_eq_idxOf, position_eq_idxOf, same]
  · rw [index_of_not_mem known, index_of_not_mem (same ▸ known)]

/-- A new node is entered with the next place, and the others keep theirs. -/
theorem insert_indexed {n : Node} (unknown : n.id ∉ g.ids) :
    g.indexed.insert n = ({ g with nodes := g.nodes ++ [n] } : Graph).indexed := by
  have ids : ({ g with nodes := g.nodes ++ [n] } : Graph).ids = g.ids ++ [n.id] := by
    simp [Graph.ids]
  have length : g.nodes.length = g.ids.length := by
    simp [Graph.ids]
  refine congrArg (Indexed.mk _) (funext fun other => ?_)
  dsimp only [indexed]
  by_cases same : other = n.id
  · subst same
    rw [Function.update_self, index_of_mem (by rw [ids]; simp), position_eq_idxOf, ids,
      List.idxOf_append_of_notMem unknown, length]
    simp
  · rw [Function.update_of_ne same]
    by_cases known : other ∈ g.ids
    · rw [index_of_mem known, index_of_mem (by rw [ids]; simp [known]), position_eq_idxOf,
        position_eq_idxOf, ids, List.idxOf_append_of_mem known]
    · rw [index_of_not_mem known, index_of_not_mem (by rw [ids]; simp [known, same])]

theorem run_seek_of_mem (known : id ∈ g.ids) :
    (seek id).run g.indexed = .ok (g.position id) g.indexed := by
  refine (run_bind_of_ok (run_get _)).trans ?_
  rw [index_indexed, index_of_mem known]
  rfl

theorem run_seek_of_not_mem (unknown : id ∉ g.ids) :
    (seek id).run g.indexed = .error (.unknownTask id) g.indexed := by
  refine (run_bind_of_ok (run_get _)).trans ?_
  rw [index_indexed, index_of_not_mem unknown]
  rfl

/-- Whatever is entered, the table stays the one that the nodes state. -/
theorem run_enter (g : Graph) (id : String) :
    (enter id).run g.indexed = .ok ((g.ensure id).position id) (g.ensure id).indexed := by
  refine (run_bind_of_ok (run_get _)).trans ?_
  by_cases known : id ∈ g.ids
  · rw [index_indexed, index_of_mem known, ensure_of_mem known]
    rfl
  · have entered : g.ensure id = { g with nodes := g.nodes ++ [.ofId id] } :=
      if_neg (by rw [contains_iff]; exact known)
    have place : (g.ensure id).position id = g.nodes.length := by
      rw [position_eq_idxOf, ids_ensure, if_neg known, List.idxOf_append_of_notMem known]
      simp [Graph.ids]
    have table : g.indexed.insert (.ofId id) = (g.ensure id).indexed := by
      rw [entered]
      exact insert_indexed known
    rw [index_indexed, index_of_not_mem known, place, ← table]
    rfl

/-- A change that keeps the ids keeps the table in step. -/
theorem run_change {f : Graph → Graph} (same : (f g).ids = g.ids) :
    (change f).run g.indexed = .ok () (f g).indexed := by
  have table : (f g).indexed = ⟨f g, g.index⟩ := by
    rw [← index_congr same]
    rfl
  rw [table]
  rfl

/-- Where no two nodes share an id, the node with an id is the one at its place. -/
theorem run_changeNode (unique : g.ids.Nodup) (known : id ∈ g.ids) {f : Node → Node}
    (keeps : ∀ n, (f n).id = n.id) :
    (changeNode (g.position id) f).run g.indexed = .ok () (g.modifyNode id f).indexed := by
  have same : ({ g with nodes := g.nodes.modify (g.position id) f } : Graph) = g.modifyNode id f := by
    refine congrArg (Graph.mk · g.edges) (List.ext_getElem (by simp) fun i bound _ => ?_)
    have inside : i < g.nodes.length := by simpa using bound
    have here : g.position id = i ↔ (g.nodes[i]).id = id := by
      constructor
      · rintro rfl
        exact id_getElem_position (position_lt known)
      · rintro rfl
        exact position_id_getElem unique inside
    simp only [List.getElem_modify, List.getElem_map, beq_iff_eq, here]
  unfold changeNode
  rw [run_change (by rw [same, ids_modifyNode keeps]), same]

/-- To add a task is to enter it and then to give it its attributes. -/
theorem modifyNode_ensure (g : Graph) (id : String) (a : Attributes) :
    (g.ensure id).modifyNode id (fun n => n.merge a) = g.addTask id a := by
  unfold addTask ensure
  cases known : g.contains id with
  | true => rfl
  | false =>
    have others : ∀ n ∈ g.nodes, n.id ≠ id := by
      intro n inside named
      exact contains_eq_false_iff.mp known (mem_ids_iff.mpr ⟨n, inside, named⟩)
    have kept : g.nodes.map (fun n => if n.id = id then n.merge a else n) = g.nodes := by
      refine (List.map_congr_left fun n inside => ?_).trans (List.map_id _)
      exact if_neg (others n inside)
    simp [modifyNode, kept, Node.ofId]

theorem perform_updateTask (g : Graph) (id : String) (a : Attributes) :
    g.perform (.updateTask id a) =
      if id ∈ g.ids then .ok (.done, g.modifyNode id fun n => n.merge a)
      else .error (.unknownTask id) := by
  simp only [perform, updateTask, contains_iff]
  split <;> rfl

theorem perform_setBarrier (g : Graph) (id : String) (barrier : Option Join) :
    g.perform (.setBarrier id barrier) =
      if id ∈ g.ids then .ok (.done, g.modifyNode id fun n => { n with barrier := barrier })
      else .error (.unknownTask id) := by
  simp only [perform, setBarrier, contains_iff]
  split <;> rfl

theorem perform_updateTransition (g : Graph) (source destination : String) (key : Nat)
    (criteria : List String) (ordinal : Option Nat) :
    g.perform (.updateTransition source destination key criteria ordinal) =
      if source ∉ g.ids then .error (.unknownTask source)
      else if destination ∉ g.ids then .error (.unknownTask destination)
      else if ∃ e ∈ g.between source destination, e.key = key then
        .ok (.done, g.modifyEdge source destination key fun e =>
          { e with criteria := criteria }.withOrdinal ordinal)
      else .error (.noTransition source destination) := by
  simp only [perform, updateTransition, Bool.not_eq_true', contains_eq_false_iff, List.any_eq_true, beq_iff_eq]
  split
  · rfl
  split
  · rfl
  split <;> rfl

/-- What is carried out is what is performed: an answer and the graph behind it, or a failure and the
graph that is left behind; and the table is the one that the nodes state. -/
theorem Sound.run_carryOut (sound : g.Sound) (o : Operation) :
    o.carryOut.run g.indexed =
      match g.perform o with
      | .ok (answer, g') => .ok answer g'.indexed
      | .error f => .error f (g.leftBy o).indexed := by
  cases o with
  | addTask id a =>
    have merged : ((g.ensure id).modifyNode id fun n => n.merge a).ids = (g.ensure id).ids :=
      ids_modifyNode fun _ => rfl
    have changed : (changeNode ((g.ensure id).position id) fun n => n.merge a).run
        (g.ensure id).indexed = _ :=
      run_changeNode (sound.ensure id).unique (mem_ids_ensure.mpr (.inr rfl)) fun _ => rfl
    refine (run_bind_of_ok (run_enter g id)).trans ?_
    refine (run_bind_of_ok changed).trans ?_
    have place : (g.ensure id).position id = (g.addTask id a).position id := by
      rw [position_eq_idxOf, position_eq_idxOf, ← merged, modifyNode_ensure]
    rw [place, modifyNode_ensure]
    rfl
  | updateTask id a =>
    rw [perform_updateTask]
    by_cases known : id ∈ g.ids
    · rw [if_pos known]
      refine (run_bind_of_ok (run_seek_of_mem known)).trans ?_
      exact run_bind_of_ok (run_changeNode sound.unique known fun _ => rfl)
    · rw [if_neg known]
      exact run_bind_of_error (run_seek_of_not_mem known)
  | setBarrier id barrier =>
    rw [perform_setBarrier]
    by_cases known : id ∈ g.ids
    · rw [if_pos known]
      refine (run_bind_of_ok (run_seek_of_mem known)).trans ?_
      exact run_bind_of_ok (run_changeNode sound.unique known fun _ => rfl)
    · rw [if_neg known]
      exact run_bind_of_error (run_seek_of_not_mem known)
  | addTransition source destination criteria ordinal =>
    refine (run_bind_of_ok (run_enter g source)).trans ?_
    refine (run_bind_of_ok (run_enter (g.ensure source) destination)).trans ?_
    refine (run_bind_of_ok (run_get _)).trans ?_
    unfold perform addTransition
    simp only [graph_indexed]
    cases met : (((g.ensure source).ensure destination).between source destination).filter
        fun e => e.criteria == criteria with
    | nil => exact run_bind_of_ok (run_change rfl)
    | cons e others =>
      cases others with
      | nil => exact run_bind_of_ok (run_change rfl)
      | cons e' others => rfl
  | updateTransition source destination key criteria ordinal =>
    rw [perform_updateTransition]
    by_cases known : source ∈ g.ids
    · rw [if_neg (not_not_intro known)]
      refine (run_bind_of_ok (run_seek_of_mem known)).trans ?_
      by_cases known' : destination ∈ g.ids
      · rw [if_neg (not_not_intro known')]
        refine (run_bind_of_ok (run_seek_of_mem known')).trans ?_
        refine (run_bind_of_ok (run_get _)).trans ?_
        have asked : ((g.indexed.graph.between source destination).any fun e => e.key == key) = true ↔
            ∃ e ∈ g.between source destination, e.key = key := by
          simp
        by_cases found : ∃ e ∈ g.between source destination, e.key = key
        · rw [if_pos found, if_pos (asked.mpr found)]
          exact run_bind_of_ok (run_change rfl)
        · rw [if_neg found, if_neg (mt asked.mp found)]
          rfl
      · rw [if_pos known']
        exact run_bind_of_error (run_seek_of_not_mem known')
    · rw [if_pos known]
      exact run_bind_of_error (run_seek_of_not_mem known)

/-- A session step by step goes through the graphs that the session goes through. -/
theorem Sound.session_indexed (sound : g.Sound) (os : List Operation) :
    g.indexed.session os = (g.run os).indexed := by
  induction os generalizing g with
  | nil => rfl
  | cons o os ih =>
    have next : (match o.carryOut.run g.indexed with
        | .ok _ s => s
        | .error _ s => s) = (g.after o).indexed := by
      rw [sound.run_carryOut]
      unfold Graph.after
      cases g.perform o <;> rfl
    unfold Indexed.session
    rw [List.foldl_cons, next]
    exact ih (sound.after o)

end Workflow.Graph

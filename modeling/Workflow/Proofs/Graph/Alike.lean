import Workflow.Proofs.Graph.Lookup
import Workflow.Proofs.Graph.Session

/-!
The order in which the transitions of a graph are kept does not show: graphs with the same nodes in the
same order, and with the same transitions in any, give the same answers to all requests.
-/

namespace Workflow.Graph

variable {g h : Graph} {id source destination : String}

/-- The same nodes in the same order, and the same transitions in any. -/
structure Alike (g h : Graph) : Prop where
  nodes : h.nodes = g.nodes
  edges : h.edges.Perm g.edges

namespace Alike

theorem contains (alike : g.Alike h) (id : String) : h.contains id = g.contains id := by
  unfold Graph.contains
  rw [alike.nodes]

theorem ids (alike : g.Alike h) : h.ids = g.ids := by
  unfold Graph.ids
  rw [alike.nodes]

theorem task (alike : g.Alike h) (id : String) : h.task id = g.task id := by
  unfold Graph.task node?
  rw [alike.nodes]

theorem position (alike : g.Alike h) (id : String) : h.position id = g.position id := by
  unfold Graph.position
  rw [alike.nodes]

theorem ensure (alike : g.Alike h) (id : String) : (g.ensure id).Alike (h.ensure id) := by
  unfold Graph.ensure
  rw [alike.contains]
  split
  · exact alike
  · exact ⟨congrArg (· ++ [Node.ofId id]) alike.nodes, alike.edges⟩

theorem addTask (alike : g.Alike h) (id : String) (a : Attributes) :
    (g.addTask id a).Alike (h.addTask id a) := by
  unfold Graph.addTask
  rw [alike.contains]
  split
  · exact ⟨congrArg (List.map _) alike.nodes, alike.edges⟩
  · exact ⟨congrArg (· ++ [(Node.ofId id).merge a]) alike.nodes, alike.edges⟩

theorem modifyNode (alike : g.Alike h) (id : String) (f : Node → Node) :
    (g.modifyNode id f).Alike (h.modifyNode id f) :=
  ⟨congrArg (List.map _) alike.nodes, alike.edges⟩

theorem modifyEdge (alike : g.Alike h) (source destination : String) (key : Nat) (f : Edge → Edge) :
    (g.modifyEdge source destination key f).Alike (h.modifyEdge source destination key f) :=
  ⟨alike.nodes, alike.edges.map _⟩

theorem between (alike : g.Alike h) (source destination : String) :
    (h.between source destination).Perm (g.between source destination) :=
  alike.edges.filter _

end Alike

theorem freshKey_eq_of_perm {es es' : List Edge} (perm : es.Perm es') : freshKey es = freshKey es' := by
  unfold freshKey
  apply perm.foldl_eq'
  intro e _ e' _ key
  omega

/-- The same answer with graphs that are alike, or the same failure. -/
inductive AlikeResults : Except Failure (Answer × Graph) → Except Failure (Answer × Graph) → Prop where
  | ok {g h : Graph} (answer : Answer) (alike : g.Alike h) :
    AlikeResults (.ok (answer, g)) (.ok (answer, h))
  | error (f : Failure) : AlikeResults (.error f) (.error f)

/-- Both graphs add a transition under the same key, or fail alike. -/
theorem Alike.addTransition (alike : g.Alike h) (source destination : String) (criteria : List String)
    (ordinal : Option Nat) :
    AlikeResults (g.perform (.addTransition source destination criteria ordinal))
      (h.perform (.addTransition source destination criteria ordinal)) := by
  have ends := (alike.ensure source).ensure destination
  have between := ends.between source destination
  have perm := between.filter fun e => e.criteria == criteria
  simp only [perform, Graph.addTransition]
  generalize (((h.ensure source).ensure destination).between source destination).filter
    (fun e => e.criteria == criteria) = matching' at perm ⊢
  generalize (((g.ensure source).ensure destination).between source destination).filter
    (fun e => e.criteria == criteria) = matching at perm ⊢
  cases matching with
  | nil =>
    obtain rfl := perm.eq_nil
    rw [freshKey_eq_of_perm between]
    exact .ok _ ⟨ends.nodes, ends.edges.append_right _⟩
  | cons e others =>
    cases others with
    | nil =>
      obtain rfl := List.perm_singleton.mp perm
      exact .ok _ (ends.modifyEdge _ _ _ _)
    | cons f others =>
      have length := perm.length_eq
      cases matching' with
      | nil => simp at length
      | cons _ rest =>
        cases rest with
        | nil => simp at length
        | cons =>
          simp only [length]
          exact .error _

/-- An operation has the same answer on graphs that are alike, and leaves them alike. -/
theorem Alike.perform (alike : g.Alike h) (o : Operation) :
    AlikeResults (g.perform o) (h.perform o) := by
  cases o with
  | addTask id a =>
    have added := alike.addTask id a
    simp only [Graph.perform, added.position]
    exact .ok _ added
  | updateTask id a =>
    simp only [Graph.perform, updateTask, alike.contains]
    split
    · exact .ok _ (alike.modifyNode id _)
    · exact .error _
  | setBarrier id barrier =>
    simp only [Graph.perform, setBarrier, alike.contains]
    split
    · exact .ok _ (alike.modifyNode id _)
    · exact .error _
  | addTransition source destination criteria ordinal =>
    exact alike.addTransition source destination criteria ordinal
  | updateTransition source destination key criteria ordinal =>
    simp only [Graph.perform, updateTransition, alike.contains,
      (alike.between source destination).any_eq]
    split
    · exact .error _
    split
    · exact .error _
    split
    · exact .ok _ (alike.modifyEdge _ _ _ _)
    · exact .error _

theorem Alike.leftBy (alike : g.Alike h) (o : Operation) : (g.leftBy o).Alike (h.leftBy o) := by
  cases o with
  | addTransition source destination => exact (alike.ensure source).ensure destination
  | _ => exact alike

/-- Graphs that are alike stay so. -/
theorem Alike.after (alike : g.Alike h) (o : Operation) : (g.after o).Alike (h.after o) := by
  have results := alike.perform o
  unfold Graph.after
  generalize g.perform o = result, h.perform o = result' at results ⊢
  cases results with
  | ok _ alike' => exact alike'
  | error => exact alike.leftBy o

theorem Alike.answer (alike : g.Alike h) (o : Operation) :
    (h.perform o).map Prod.fst = (g.perform o).map Prod.fst := by
  have results := alike.perform o
  generalize g.perform o = result, h.perform o = result' at results ⊢
  cases results with
  | ok => rfl
  | error => rfl

/-- They answer alike: transitions are sorted by their keys, so their order in the graph does not
show. -/
theorem Alike.transitions (alike : g.Alike h) (sound : g.Sound) (source destination : String)
    (f : Filter) : h.transitions source destination f = g.transitions source destination f := by
  refine (mergeSort_eq_of_perm (k := Edge.key)
    ((alike.between source destination).symm.filter _) ?_).symm
  intro e first e' second same
  obtain ⟨inside, origin, target⟩ := mem_between.mp (List.mem_filter.mp first).1
  obtain ⟨inside', origin', target'⟩ := mem_between.mp (List.mem_filter.mp second).1
  exact sound.eq_of_key_eq inside inside' (origin.trans origin'.symm) (target.trans target'.symm) same

theorem Alike.next (alike : g.Alike h) (sound : g.Sound) (id : String) : h.next id = g.next id := by
  unfold Graph.next
  rw [alike.contains]
  refine if_congr Iff.rfl (congrArg _ ?_) rfl
  refine (mergeSort_lex_eq_of_perm (f := Edge.destination) (k := Edge.key)
    (alike.edges.symm.filter _) ?_).symm
  intro e first e' second target same
  simp only [List.mem_filter, beq_iff_eq] at first second
  exact sound.eq_of_key_eq first.1 second.1 (first.2.trans second.2.symm) target same

theorem Alike.prev (alike : g.Alike h) (sound : g.Sound) (id : String) : h.prev id = g.prev id := by
  unfold Graph.prev
  rw [alike.contains]
  refine if_congr Iff.rfl (congrArg _ ?_) rfl
  refine (mergeSort_lex_eq_of_perm (f := Edge.source) (k := Edge.key)
    (alike.edges.symm.filter _) ?_).symm
  intro e first e' second origin same
  simp only [List.mem_filter, beq_iff_eq] at first second
  exact sound.eq_of_key_eq first.1 second.1 origin (first.2.trans second.2.symm) same

theorem Alike.inCycle (alike : g.Alike h) (id : String) : h.inCycle id = g.inCycle id := by
  have within : Within h.successors h.ids = Within g.successors g.ids := by
    funext a b
    unfold Within
    rw [alike.ids, mem_successors_iff, mem_successors_iff]
    unfold Adjacent
    simp only [alike.edges.mem_iff]
  rw [Bool.eq_iff_iff, inCycle_iff, inCycle_iff, within]

/-- A look-up has the same answer on graphs that are alike. -/
theorem Alike.look (alike : g.Alike h) (sound : g.Sound) (l : Lookup) : h.look l = g.look l := by
  cases l with
  | hasTask id => simp only [Graph.look, alike.contains]
  | task id => simp only [Graph.look, alike.task]
  | tasks => simp only [Graph.look, alike.nodes]
  | size => simp only [Graph.look, alike.nodes, alike.edges.length_eq]
  | barrier id => simp only [Graph.look, alike.task]
  | hasBarrier id => simp only [Graph.look, alike.task]
  | transitions source destination f => simp only [Graph.look, alike.transitions sound]
  | transition source destination f => simp only [Graph.look, Graph.transition, alike.transitions sound]
  | next id => simp only [Graph.look, alike.next sound]
  | prev id => simp only [Graph.look, alike.prev sound]
  | roots => simp only [Graph.look, Graph.roots, alike.ids, alike.edges.any_eq]
  | leaves => simp only [Graph.look, Graph.leaves, alike.ids, alike.edges.any_eq]
  | inCycle id => simp only [Graph.look, alike.inCycle]
  | document => simp only [Graph.look, sound.document_eq alike.nodes alike.edges]

/-- Graphs that are alike cannot be told apart by any requests. -/
theorem Alike.answers (alike : g.Alike h) (sound : g.Sound) (rs : List Request) :
    h.answers rs = g.answers rs := by
  induction rs generalizing g h with
  | nil => rfl
  | cons r rs ih =>
    cases r with
    | change o => simp only [Graph.answers, alike.answer, ih (alike.after o) (sound.after o)]
    | look l => simp only [Graph.answers, alike.look sound, ih alike sound]

end Workflow.Graph

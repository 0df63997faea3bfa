import Mathlib
import Workflow.Proofs.Graph.Alike
import Workflow.Proofs.Graph.Reading

/-!
A graph is told by its document: what is read from it answers every request as the graph does. And a
document that is read and written again is in its normal form.
-/

namespace Workflow.Graph

variable {g : Graph}

/-- The document of a graph states one like it. -/
theorem Sound.alike_document (sound : g.Sound) : g.Alike g.document.graph :=
  ⟨g.nodes_document, sound.edges_document_perm⟩

/-- Whatever becomes of a graph in a session, its document is read as a graph with the same nodes in the
same order and with the same transitions, which has the same document and answers all requests alike. A
document is read just if it is well-formed, and it is written again in its normal form. -/
theorem documents_roundTrip (begun : g.Begun) (os : List Operation) :
    (∃ g', ofDocument (g.run os).document = .ok g' ∧
      g'.nodes = (g.run os).nodes ∧ g'.edges.Perm (g.run os).edges ∧
      g'.document = (g.run os).document ∧
      ∀ rs, g'.answers rs = (g.run os).answers rs) ∧
    ∀ d : Document, (∀ h, ofDocument d = .ok h → h.document = d.normal) ∧
      ((∃ h, ofDocument d = .ok h) ↔ d.WellFormed) := by
  constructor
  · have sound := (sound_of_begun begun).run os
    have alike := sound.alike_document
    have states := ofDocument_eq_ok_iff.mpr ⟨sound.document_wellFormed, rfl⟩
    exact ⟨_, states, alike.nodes, alike.edges, sound.document_eq alike.nodes alike.edges,
      alike.answers sound⟩
  · intro d
    refine ⟨?_, ?_⟩
    · intro h states
      obtain ⟨formed, rfl⟩ := ofDocument_eq_ok_iff.mp states
      exact formed.document_graph
    · constructor
      · intro ⟨_, states⟩
        exact (ofDocument_eq_ok_iff.mp states).1
      · intro formed
        exact ⟨_, ofDocument_eq_ok_iff.mpr ⟨formed, rfl⟩⟩


/-- A document with a name that is the id, and with transitions in no order. -/
def byHand : Document where
  directed := true
  multigraph := true
  attributes := .object []
  nodes := [{ id := "b" }, { id := "a", name := some "a" }]
  adjacency := [[{ id := "a", key := 4 }, { id := "b", key := 1 }, { id := "a", key := 2 }], []]

/-- The document is read, and what a session makes of it is read back; written again, the name is dropped
and the transitions are sorted. -/
theorem byHand_roundTrip :
    ofDocument byHand = .ok byHand.graph ∧
    (∃ g', ofDocument (byHand.graph.run [.addTransition "a" "b" ["x"] none]).document = .ok g' ∧
      ∀ rs, g'.answers rs = (byHand.graph.run [.addTransition "a" "b" ["x"] none]).answers rs) ∧
    byHand.graph.document.nodes = [{ id := "b" }, { id := "a" }] ∧
    byHand.graph.document.adjacency =
      [[{ id := "b", key := 1 }, { id := "a", key := 2 }, { id := "a", key := 4 }], []] := by
  have states : ofDocument byHand = .ok byHand.graph := by rfl
  obtain ⟨⟨g', read, _, _, _, alike⟩, documents⟩ :=
    documents_roundTrip (.read states) [.addTransition "a" "b" ["x"] none]
  rw [(documents byHand).1 byHand.graph states]
  exact ⟨states, ⟨g', read, alike⟩, by decide, by cbv⟩

end Workflow.Graph

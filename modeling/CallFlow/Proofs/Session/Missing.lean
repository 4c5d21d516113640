import CallFlow.Proofs.Graph.Removal
import CallFlow.Proofs.Session.Agreement
import CallFlow.Proofs.Session.Edits

/-!
# Edits of what is not there

An edit may be asked for with an id that nothing has. The panel, the relabelling
and the removal of edges look for the id first and hand the graph back as it is,
so that nothing is recorded. The removal of a node does not look: it leaves out
the node of the id and the edges at either end of which it stands, and if there
are none, what it builds anew is the graph there was. The difference does not
show in the graph but in what undoing takes back: after such a removal it takes
back the removal, and nothing else (`edits_of_missing`).
-/

namespace CallFlow

/-! ## The graph -/

section Graph

variable {document : Value} {nodes edges : List Fields} {id : String}

/-- Nodes are left as they are where changes are meant for another. -/
theorem changeNodes_of_missing (hid : ∀ node ∈ nodes, idOf node ≠ id) (changes : Fields) :
    changeNodes (.str id) changes (nodes.map Value.obj) = .ok (nodes.map Value.obj) := by
  induction nodes with
  | nil => rfl
  | cons node rest ih =>
    have hne : Value.str (idOf node) ≠ .str id :=
      fun h => hid node List.mem_cons_self (Value.str.inj h)
    rw [List.map_cons, changeNodes, Value.object, Outcome.ok_bind, if_neg hne,
      ih fun n hn => hid n (List.mem_cons_of_mem _ hn)]
    rfl

/-- Edges are left as they are where others are relabelled, and no node is
touched. -/
theorem relabelEdges_of_missing (hid : ∀ edge ∈ edges, idOf edge ≠ id)
    (condition priority : Value) :
    relabelEdges (.str id) condition priority (edges.map Value.obj)
      = .ok (edges.map Value.obj, none) := by
  induction edges with
  | nil => rfl
  | cons edge rest ih =>
    have hne : Value.str (idOf edge) ≠ .str id :=
      fun h => hid edge List.mem_cons_self (Value.str.inj h)
    rw [List.map_cons, relabelEdges, Value.object, Outcome.ok_bind, if_neg hne,
      ih fun e he => hid e (List.mem_cons_of_mem _ he)]
    rfl

theorem hasNode_of_missing (hid : ∀ node ∈ nodes, idOf node ≠ id) :
    hasNode (.str id) (nodes.map Value.obj) = .ok false := by
  rw [hasNode_map_obj, List.any_eq_false.mpr fun node hnode => by simpa using hid node hnode]

variable (hg : Holds document nodes edges)

include hg

/-- **Replacing the list of a missing node** leaves the graph. -/
theorem replaceTransitions_of_missing (hid : ∀ node ∈ nodes, idOf node ≠ id)
    (transitions : Value) :
    replaceTransitions document (.str id) transitions = Revision.unchanged document := by
  rw [replaceTransitions, hg.nodesOf_eq, Outcome.ok_bind, hasNode_of_missing hid]
  rfl

/-- **Changing fields of a missing node** leaves the graph. -/
theorem updateNodeData_of_missing (hid : ∀ node ∈ nodes, idOf node ≠ id) {updates : Value}
    {stated : Fields} (hupdates : updates.asFields = .ok stated) :
    updateNodeData document (.str id) updates = Revision.unchanged document := by
  rw [updateNodeData, hupdates, hg.nodesOf_eq]
  simp only [Outcome.ok_bind, changeNodes_of_missing hid, hasNode_of_missing hid]
  rfl

/-- **Relabelling a missing edge** leaves the graph. -/
theorem updateEdge_of_missing (hid : ∀ edge ∈ edges, idOf edge ≠ id)
    (condition priority : Value) :
    updateEdge document (.str id) condition priority = Revision.unchanged document := by
  rw [updateEdge, hg.edgesOf_eq, Outcome.ok_bind, relabelEdges_of_missing hid]
  rfl

/-- **Removing a missing edge** leaves the graph. -/
theorem removeEdges_of_missing (hid : ∀ edge ∈ edges, idOf edge ≠ id) :
    removeEdges document (.list [.str id]) = Revision.unchanged document := by
  have hkept : edges.filter (fun e => !([id].contains (idOf e))) = edges :=
    List.filter_eq_self.mpr fun e he => by simpa using hid e he
  have hids : (Value.list [.str id]).idSet = .ok [id] := rfl
  rw [removeEdges, hids, hg.edgesOf_eq]
  simp only [Outcome.ok_bind, objects_map_obj, hkept, if_pos]

/-- **Removing a missing node** builds the graph anew. -/
theorem deleteNode_of_missing (hid : ∀ node ∈ nodes, idOf node ≠ id)
    (hends : ∀ edge ∈ edges, sourceOf edge ≠ id ∧ targetOf edge ≠ id) :
    deleteNode document (.str id) = .ok (.rebuilt (Graph.ofObjects nodes edges)) := by
  have hnodes : nodes.filter (fun n => idOf n ≠ id) = nodes :=
    List.filter_eq_self.mpr fun n hn => decide_eq_true (hid n hn)
  have hedges : edgesWithout id edges = edges :=
    List.filter_eq_self.mpr fun e he => by simpa using hends e he
  have hnone : edges.filter (fun e => targetOf e = id) = [] :=
    List.filter_eq_nil_iff.mpr fun e he => by simpa using (hends e he).2
  have hscope : sourcesInto id edges = [] := by
    rw [sourcesInto, hnone]
    rfl
  rw [deleteNode_eq hg, hnodes, hedges, hscope, Graph.sync_nil]
  rfl

end Graph

namespace Session

/-- Undoing leads to the same graphs from states that show and go back to the
same. -/
theorem SameGraphs.undo {s s' : Session} (h : SameGraphs s s') : SameGraphs s.undo.1 s'.undo.1 := by
  obtain ⟨hgraph, hhistory⟩ := h
  cases hs : s.history with
  | nil =>
    rw [Session.undo, Session.undo, hhistory, hs]
    exact ⟨hgraph, hhistory⟩
  | cons graph history =>
    obtain ⟨h, h'⟩ := sameGraphs_undo hs
    obtain ⟨k, k'⟩ := sameGraphs_undo (hhistory.trans hs)
    exact ⟨k.trans h.symm, k'.trans h'.symm⟩

/-- **Edits of what is not there.** In every state a session on a configuration
reaches, the graph is one of objects, and

* replacing the list of a missing node, or changing its fields, leaves the
  session as it is,
* so does relabelling a missing edge, and removing one leaves the graph and what
  is gone back to; undoing then takes back what it would have,
* removing a node that is missing, and that no edge starts from or leads to,
  leaves the graph but records it, and undoing then takes back nothing else. -/
theorem edits_of_missing {settings : Settings} {config : Value} {first : Session}
    (hfirst : ofConfig settings config = .ok first) (steps : List Step) :
    ∃ nodes edges, (first.run steps).graph = (Graph.ofObjects nodes edges).toValue
      ∧ ∀ id : String,
        ((∀ node ∈ nodes, idOf node ≠ id) →
          (∀ transitions, (first.run steps).step (.setTransitions (.str id) transitions)
            = (first.run steps, .ok .null))
          ∧ ∀ updates stated, updates.asFields = .ok stated →
            (first.run steps).step (.updateNode (.str id) updates) = (first.run steps, .ok .null))
        ∧ ((∀ edge ∈ edges, idOf edge ≠ id) →
          (∀ condition priority,
            (first.run steps).step (.relabelEdge (.str id) condition priority)
              = (first.run steps, .ok .null))
          ∧ ((first.run steps).step (.deleteEdge (.str id))).2 = .ok .null
          ∧ SameGraphs (first.run steps) ((first.run steps).step (.deleteEdge (.str id))).1
          ∧ SameGraphs (first.run steps).undo.1
              ((first.run steps).step (.deleteEdge (.str id))).1.undo.1)
        ∧ ((∀ node ∈ nodes, idOf node ≠ id) →
          (∀ edge ∈ edges, sourceOf edge ≠ id ∧ targetOf edge ≠ id) →
          ((first.run steps).step (.deleteNode (.str id))).1.graph = (first.run steps).graph
          ∧ ((first.run steps).step (.deleteNode (.str id))).1.history
            = (first.run steps).graph :: (first.run steps).history
          ∧ SameGraphs (first.run steps)
              ((first.run steps).step (.deleteNode (.str id))).1.undo.1) := by
  obtain ⟨nodes, edges, hgraph⟩ := graph_run hfirst steps
  generalize first.run steps = s at hgraph ⊢
  have hg : Holds s.graph nodes edges := hgraph ▸ holds_toValue nodes edges
  have hkept : Revision.unchanged s.graph = .ok .kept := hgraph ▸ rfl
  refine ⟨nodes, edges, hgraph, fun id => ⟨fun hid => ⟨fun transitions => ?_,
    fun updates stated hupdates => ?_⟩, fun hid => ⟨fun condition priority => ?_, ?_⟩,
    fun hid hends => ?_⟩⟩
  · rw [step, replaceTransitions_of_missing hg hid, hkept]
    rfl
  · rw [step, updateNodeData_of_missing hg hid hupdates, hkept]
    rfl
  · rw [step, updateEdge_of_missing hg hid, hkept]
    rfl
  · have hdelete : s.step (.deleteEdge (.str id)) = (s.forgetEdge (.str id), .ok .null) := by
      rw [step, removeEdges_of_missing hg hid, hkept]
      rfl
    have hsame := sameGraphs_forgetEdge s (.str id)
    rw [hdelete]
    exact ⟨rfl, hsame, hsame.undo⟩
  · -- what is built anew is the graph there was, but it is recorded all the same
    have hedit : (Step.deleteNode (.str id)).edit? s.graph
        = some (.ok (.rebuilt (Graph.ofObjects nodes edges))) :=
      congrArg some (deleteNode_of_missing hg hid hends)
    obtain ⟨hsame, hhistory⟩ := sameGraphs_step_of_edit hedit
    obtain ⟨hback, hback'⟩ := sameGraphs_undo hhistory
    exact ⟨hsame.trans hgraph.symm, hhistory, hback, hback'⟩

/-- Edits of what is not there, after an edge was drawn. -/
theorem edits_of_missing_loop :
    ∃ first, ofConfig .default (loopConfig (.int 1)) = .ok first
      ∧ (first.run [.connect (.str "a") (.str "a") (.str "timeout") (.int 0)]).step
          (.setTransitions (.str "zz") (.list []))
        = (first.run [.connect (.str "a") (.str "a") (.str "timeout") (.int 0)], .ok .null) := by
  have hfirst : ofConfig .default (loopConfig (.int 1)) = .ok (loopSession (.int 1)) := by
    decide +kernel
  have hids : nodeIds ((loopSession (.int 1)).run [.connect (.str "a") (.str "a") (.str "timeout")
      (.int 0)]).graph = ["a"] := by decide +kernel
  obtain ⟨nodes, edges, hgraph, hmissing⟩ := edits_of_missing hfirst
    [.connect (.str "a") (.str "a") (.str "timeout") (.int 0)]
  rw [hgraph, (statesLists_toValue nodes edges).nodeIds_eq] at hids
  have hid : ∀ node ∈ nodes, idOf node ≠ "zz" := by
    intro node hnode heq
    have hmem : idOf node ∈ nodes.map idOf := List.mem_map_of_mem hnode
    rw [hids, heq] at hmem
    simp at hmem
  exact ⟨_, hfirst, ((hmissing "zz").1 hid).1 (.list [])⟩

/-- **A removal of what is not there swallows an undo.** -/
theorem undo_deleteNode_loop :
    ∃ first, ofConfig .default (loopConfig (.int 1)) = .ok first
      ∧ (first.step (.deleteNode (.str "zz"))).1.graph = first.graph
      ∧ (first.step (.deleteNode (.str "zz"))).1.history ≠ first.history
      ∧ (first.run [.connect (.str "a") (.str "a") (.str "timeout") (.int 0),
          .deleteNode (.str "zz"), .undo]).graph
        = (first.run [.connect (.str "a") (.str "a") (.str "timeout") (.int 0)]).graph := by
  refine ⟨loopSession (.int 1), ?_, ?_, ?_, ?_⟩ <;> decide +kernel

end Session

end CallFlow

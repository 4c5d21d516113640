import CallFlow.Proofs.Config.Saving
import CallFlow.Proofs.Graph.Synchronisation

/-!
# Loading what was saved

A graph whose nodes have different ids is saved and loaded again as a graph
with the same nodes, in their order, each of the same kind, and with the
same transitions, each list in its order (`reloadedAs_saveGraph`). A node
whose kind goes on nowhere is the exception: it comes back without any.

The two graphs need not be alike otherwise. Edges may have been interleaved,
and come back node by node; they may have had any ids, or none, and come
back with different ones; an edge from nowhere is gone. What is loaded is in
agreement already, since a list and the edges made of it say the same.
-/

namespace CallFlow

/-- Whether the kind the data of a node state is a text, or blank. -/
def hasNamedKind (node : Fields) : Bool :=
  (Fields.get (dataOf node) "type").isText || !(Fields.get (dataOf node) "type").truthy

/-- A kind that is a text, or is filled in, is a text. -/
theorem kindOf_eq_str {node : Fields} (h : hasNamedKind node = true) :
    ∃ kind, kindOf (dataOf node) = .str kind := by
  rw [kindOf, Value.orElse]
  split
  next hstated =>
    rw [hasNamedKind, hstated, Bool.not_true, Bool.or_false] at h
    exact Value.eq_str_of_isText h
  next => exact ⟨_, rfl⟩

theorem truthy_canvasPosition (node : Fields) : (canvasPosition node).truthy = true := rfl

theorem map_idOf_saveNode {edges nodes saved : List Fields} {keepPositions : Bool}
    (hnamed : ∀ node ∈ nodes, idOf node ≠ "")
    (h : List.Forall₂ (fun node out => saveNode edges keepPositions node = .ok out) nodes saved) :
    saved.map idOf = nodes.map idOf :=
  map_eq_map_of_forall₂ (forall₂_imp_of_mem h fun node hnode _ hsave =>
    (idOf_saveNode hsave).trans (savedId_of_idOf (hnamed node hnode)))

theorem map_idOf_loadedAs {raws nodes : List Fields} (h : List.Forall₂ LoadedAs raws nodes) :
    nodes.map idOf = raws.map idOf :=
  map_eq_map_of_forall₂ (h.imp fun _ _ hnode => hnode.idOf_eq)

section Reload

variable {settings settings' : Settings} {request : SaveRequest} {graph document : Value}
  {values values' : List Value}

variable (settings') in
/-- **What was saved is loaded without fault**, on the default grid or from
the places that were kept: a node for each node. -/
theorem loadGraph_saveGraph (hnodes : nodesOf graph = .ok values)
    (hedges : edgesOf graph = .ok values')
    (hkinds : ∀ node ∈ objectsAmong values, hasNamedKind node = true)
    (hedits : editsSettings request.edits = true)
    (hplaces : settings' = .default ∨ request.keepPositions = true)
    (h : saveGraph settings request graph = .ok document) :
    ∃ saved nodes, saveNodes graph request.keepPositions = .ok saved
      ∧ sectionNodes document = .ok saved
      ∧ loadGraph settings' document = .ok (Graph.ofObjects nodes (loadEdges saved (some [])))
      ∧ List.Forall₂ (fun node out =>
        saveNode (objectsAmong values') request.keepPositions node = .ok out)
        (objectsAmong values) saved
      ∧ List.Forall₂ LoadedAs saved nodes := by
  obtain ⟨saved, workflow, hsaved, hmerge, rfl⟩ := saveGraph_eq_ok h
  obtain ⟨ns, es, hns, hes, hall⟩ := saveNodes_eq_ok hsaved
  obtain rfl := Except.ok.inj (hnodes.symm.trans hns)
  obtain rfl := Except.ok.inj (hedges.symm.trans hes)
  have hsection := sectionNodes_saveGraph (workflowSection_saveGraph hedits hmerge)
  have hatoms : ∀ out ∈ saved, (kindOf out).isAtom = true := by
    intro out hout
    obtain ⟨node, hnode, hsave⟩ := exists_of_mem_right hall hout
    obtain ⟨kind, hkind⟩ := kindOf_eq_str (hkinds node hnode)
    rw [kindOf_saveNode hsave, hkind]
    rfl
  have hstored : settings' = .default ∨ ∀ out ∈ saved, (storedPosition out).truthy = true := by
    refine hplaces.imp_right fun hkeep out hout => ?_
    obtain ⟨node, _, hsave⟩ := exists_of_mem_right hall hout
    rw [storedPosition_saveNode hsave hkeep, truthy_canvasPosition]
  -- what is loaded are the entries of the very section that was saved
  obtain ⟨g, hload⟩ := exists_loadGraph hsection hatoms hstored
  obtain ⟨raws, nodes, hraws, rfl, hloaded⟩ := loadGraph_eq_ok hload
  obtain rfl := Except.ok.inj (hsection.symm.trans hraws)
  exact ⟨saved, nodes, hsaved, hsection, hload, hall, hloaded⟩

/-- **What a node of a graph is after it was saved with its place and loaded
again.** -/
structure ReloadedAs (edges edges' : List Fields) (node node' : Fields) : Prop where
  /-- It has its id. -/
  id : Fields.get node' "id" = .str (idOf node)
  /-- It is of its kind, which is spelt out. -/
  kind : Fields.get (dataOf node') "type" = kindOf (dataOf node)
  /-- It is drawn by the box of its kind. -/
  box : Fields.get node' "type" = .str (boxOf (kindOf (dataOf node)))
  /-- It is at its place. -/
  position : Fields.get node' "position" = canvasPosition node
  /-- It has its transitions, if its kind goes on anywhere. -/
  transitions : outgoing edges' (idOf node)
    = if keepsTransitions (dataOf node) then outgoing edges (idOf node) else []

section Node

variable {edges edges' : List Fields} {keepPositions : Bool} {node out node' : Fields}
  (hsave : saveNode edges keepPositions node = .ok out) (hloaded : LoadedAs out node')
  (hstated : outgoing edges' (idOf out) = statedTransitions out)

include hsave hloaded hstated

/-- A node that has an id, saved with its place and loaded again, is what it
was. -/
theorem reloadedAs_of_saveNode (hkeep : keepPositions = true) (hid : idOf node ≠ "") :
    ReloadedAs edges edges' node node' := by
  have hidOut : idOf out = idOf node := (idOf_saveNode hsave).trans (savedId_of_idOf hid)
  have hplace := storedPosition_saveNode hsave hkeep
  refine ⟨?_, ?_, ?_, ?_, ?_⟩
  · rw [hloaded.get_id, hidOut]
  · rw [hloaded.dataOf_eq, Fields.get_put_self, kindOf_saveNode hsave]
  · rw [hloaded.get_type, kindOf_saveNode hsave]
  · rw [hloaded.position_eq (by rw [hplace, truthy_canvasPosition]), hplace]
  · rw [← hidOut, hstated, statedTransitions_saveNode hsave, savedId_of_idOf hid, hidOut]

/-- **The list of a node that was saved and loaded again is a copy of the
edges made of it.** -/
theorem copies_of_saveNode
    (hpriorities : ∀ edge ∈ edges, (Transition.ofEdge edge).priority.wellFormed = true) :
    Copies edges' node' := by
  have hwell : ∀ t ∈ statedTransitions out, t.priority.wellFormed = true := by
    intro t ht
    obtain ⟨edge, hedge, rfl⟩ := exists_ofEdge_of_mem_statedTransitions hsave ht
    exact hpriorities edge hedge
  refine ⟨transitionItems out, ?_, ?_⟩
  · rw [cachedTransitions, hloaded.get_dataOf (by decide), transitionItems,
      get_transitions_saveNode hsave]
    split
    · cases outgoing edges (savedId node (dataOf node)) <;> rfl
    · rfl
  · rw [hloaded.idOf_eq, hstated, transitionItems_eq_map hsave, List.forall₂_map_right_iff,
      List.forall₂_same]
    exact fun t ht => restates_toItem_self (hwell t ht)

end Node

theorem wellFormed_priority_of_graph (hgraph : graph.wellFormed = true)
    (hedges : edgesOf graph = .ok values') :
    ∀ edge ∈ objectsAmong values', (Transition.ofEdge edge).priority.wellFormed = true := by
  exact fun edge hedge => Transition.wellFormed_priority_ofEdge
    (wellFormed_of_edgesOf hgraph hedges _ (mem_objectsAmong.mp hedge))

variable (settings') in
/-- **Saving a graph with its places and loading it again preserves the
state machine.** The nodes come back in their order, each with its id, its
kind, its place and its transitions in their order; nodes whose kind goes on
nowhere come back without any. No edge starts from what is no node, no two
edges share an id, and bringing the graph into agreement reports exactly the
nodes from which an edge with an undefined priority starts. -/
theorem reloadedAs_saveGraph (hgraph : graph.wellFormed = true)
    (hnodes : nodesOf graph = .ok values) (hedges : edgesOf graph = .ok values')
    (hids : ((objectsAmong values).map idOf).Nodup)
    (hnamed : ∀ node ∈ objectsAmong values, idOf node ≠ "")
    (hkinds : ∀ node ∈ objectsAmong values, hasNamedKind node = true)
    (hedits : editsSettings request.edits = true) (hkeep : request.keepPositions = true)
    (h : saveGraph settings request graph = .ok document) :
    ∃ nodes edges, loadGraph settings' document = .ok (Graph.ofObjects nodes edges)
      ∧ List.Forall₂ (ReloadedAs (objectsAmong values') edges) (objectsAmong values) nodes
      ∧ (∀ edge ∈ edges, sourceOf edge ∈ nodes.map idOf)
      ∧ (edges.map idOf).Nodup
      ∧ ∃ synced, sync (Graph.ofObjects nodes edges).toValue none = .ok synced
        ∧ synced.updated = (nodes.filter (hasUndefinedPriority edges)).map idOf
        ∧ (synced.updated = [] → synced.revision = .kept) := by
  obtain ⟨saved, nodes, _, _, hload, hall, hloaded⟩ :=
    loadGraph_saveGraph settings' hnodes hedges hkinds hedits (.inr hkeep) h
  have hidsSaved := map_idOf_saveNode hnamed hall
  have hidsNodes := map_idOf_loadedAs hloaded
  have hstated : ∀ out ∈ saved,
      outgoing (loadEdges saved (some [])) (idOf out) = statedTransitions out :=
    fun out hout => outgoing_loadEdges_of_nodup (hidsSaved ▸ hids) (some []) hout
  have hboth := forall₂_comp hall hloaded
  refine ⟨nodes, loadEdges saved (some []), hload, ?_, ?_, (nodup_loadEdges saved []).1, ?_⟩
  · refine forall₂_imp_of_mem hboth ?_
    rintro node hnode node' ⟨out, hout, hsave, hnode'⟩
    exact reloadedAs_of_saveNode hsave hnode' (hstated out hout) hkeep (hnamed node hnode)
  · intro edge hedge
    rw [hidsNodes]
    exact sourceOf_mem_of_mem_loadEdges saved _ hedge
  · refine sync_of_copies fun node' hnode' => ?_
    obtain ⟨node, _, out, hout, hsave, hloadedAs⟩ := exists_of_mem_right hboth hnode'
    exact copies_of_saveNode hsave hloadedAs (hstated out hout)
      (wellFormed_priority_of_graph hgraph hedges)

end Reload

/-- Two nodes, one of which goes on to itself and to the other, with an edge
from nowhere in between. -/
def waitingGraph (priority : Value) : Value :=
  (Graph.ofObjects
    [[("id", .str "wait"), ("position", .obj [("x", .int 3)]), ("data", .obj [])],
      [("id", .str "end"), ("data", .obj [("type", .str "end_call")])]]
    [[("source", .str "wait"), ("target", .str "wait"), ("label", .str "timeout"),
        ("data", .obj [("priority", priority)])],
      [("source", .str "nowhere"), ("target", .str "end")],
      [("source", .str "wait"), ("target", .str "end"), ("data", .null)]]).toValue

/-- Saving the graph of two nodes and loading it again. -/
theorem reloadedAs_saveGraph_waiting :
    ∃ document nodes edges,
      saveGraph .default { keepPositions := true } (waitingGraph (.int 2)) = .ok document
      ∧ loadGraph .default document = .ok (Graph.ofObjects nodes edges)
      ∧ (∀ edge ∈ edges, sourceOf edge ∈ nodes.map idOf) ∧ (edges.map idOf).Nodup := by
  obtain ⟨document, hsave⟩ : ∃ document,
      saveGraph .default { keepPositions := true } (waitingGraph (.int 2)) = .ok document :=
    ⟨_, rfl⟩
  obtain ⟨nodes, edges, hload, _, hsources, hids, _⟩ :=
    reloadedAs_saveGraph .default (by decide) (nodesOf_toValue _) (edgesOf_toValue _) (by decide)
      (by decide) (by decide) rfl rfl hsave
  exact ⟨document, nodes, edges, hsave, hload, hsources, hids⟩

/-- **A node whose priority is undefined is reported after loading**, although
what was saved is what is loaded. -/
theorem updated_of_saveGraph_undefined :
    ∃ document g synced,
      saveGraph .default { keepPositions := true } (waitingGraph (.float Binary.notANumber))
        = .ok document
      ∧ loadGraph .default document = .ok g
      ∧ sync g.toValue none = .ok synced ∧ synced.updated ≠ [] := by
  have hrun : (do
      let document ← saveGraph .default { keepPositions := true }
        (waitingGraph (.float Binary.notANumber))
      let g ← loadGraph .default document
      return (← sync g.toValue none).updated) = .ok ["wait"] := by decide +kernel
  obtain ⟨document, hsave, hrun⟩ := Outcome.bind_eq_ok.mp hrun
  obtain ⟨g, hload, hrun⟩ := Outcome.bind_eq_ok.mp hrun
  obtain ⟨synced, hsync, hrun⟩ := Outcome.bind_eq_ok.mp hrun
  refine ⟨document, g, synced, hsave, hload, hsync, ?_⟩
  rw [Except.ok.inj hrun]
  exact List.cons_ne_nil _ _

end CallFlow

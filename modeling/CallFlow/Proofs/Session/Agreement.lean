import CallFlow.Proofs.Graph.Synchronisation
import CallFlow.Proofs.Session.Consistency

/-!
# What a session shows is what it saves

In every state of a session the list of a node is a copy of the edges, edge
ids are different, and every edge is labelled by its condition. A node is
saved with what the edges from it say, and so with what its list says.

Bringing such a state into agreement changes nothing, with one exception: a
priority that is a number and none agrees with no priority, not even with
itself, and so a node from which such an edge starts is always reported. Its
list is a copy all the same.
-/

namespace CallFlow

/-- **A node of a consistent graph is saved with what its list says**, if a
node of its kind is saved with transitions at all. -/
theorem Consistent.restates_saveNode {nodes edges : List Fields} (hc : Consistent nodes edges)
    {keepPositions : Bool} {node out : Fields} (hnode : node ∈ nodes)
    (h : saveNode edges keepPositions node = .ok out) :
    idOf out = idOf node
      ∧ (keepsTransitions (dataOf node) = true → ∃ items,
        cachedTransitions (dataOf node) = .list items
          ∧ List.Forall₂ (fun item cached => restates item cached = true)
            (transitionItems out) items) := by
  have hid := hc.named node hnode
  refine ⟨(idOf_saveNode h).trans hid, fun hkeeps => ?_⟩
  obtain ⟨items, hitems, hcopy⟩ := hc.copies node hnode
  refine ⟨items, hitems, ?_⟩
  rw [transitionItems_saveNode h, if_pos hkeeps, hid, List.forall₂_map_left_iff]
  exact hcopy

/-- What is saved of a graph of objects are its nodes, one by one. -/
theorem saveGraph_ofObjects {nodes edges : List Fields} {settings : Settings}
    {request : SaveRequest} {document : Value}
    (h : saveGraph settings request (Graph.ofObjects nodes edges).toValue = .ok document) :
    ∃ saved workflow, document = replaceSection request.previous workflow
      ∧ Fields.get workflow "nodes" = .list (saved.map Value.obj)
      ∧ List.Forall₂ (fun node out => saveNode edges request.keepPositions node = .ok out)
        nodes saved := by
  obtain ⟨saved, workflow, hsaved, _, rfl⟩ := saveGraph_eq_ok h
  obtain ⟨values, values', hnodes, hedges, hall⟩ := saveNodes_eq_ok hsaved
  rw [nodesOf_toValue] at hnodes
  rw [edgesOf_toValue] at hedges
  obtain rfl := Except.ok.inj hnodes
  obtain rfl := Except.ok.inj hedges
  rw [Graph.ofObjects, objectsAmong_map_obj, objectsAmong_map_obj] at hall
  exact ⟨saved, _, rfl, Fields.get_put_self _ _ _, hall⟩

namespace Session

/-- **In every state of a session lists and edges agree.** After any run of
steps on a session that was started on a configuration,

* the list of every node is a copy of the edges, and bringing the graph into
  agreement reports exactly the nodes from which an edge with an undefined
  priority starts,
* no two edges share an id,
* every edge is labelled by its condition, and
* whatever the graph is saved over, the transitions that are saved for a
  node, if its kind is one whose transitions are saved, say what its list
  says. -/
theorem agreement_run {settings : Settings} {config : Value} {first : Session} {steps : List Step}
    (hconfig : config.wellFormed = true) (hfirst : ofConfig settings config = .ok first)
    (hsteps : first.admits steps = true) :
    ∃ nodes edges, (first.run steps).graph = (Graph.ofObjects nodes edges).toValue
      ∧ (∀ node ∈ nodes, Copies edges node)
      ∧ (∃ synced, sync (first.run steps).graph none = .ok synced
        ∧ synced.updated = (nodes.filter (hasUndefinedPriority edges)).map idOf
        ∧ (synced.updated = [] → synced.revision = .kept))
      ∧ (edges.map idOf).Nodup
      ∧ (∀ edge ∈ edges, Labelled edge)
      ∧ ∀ settings request document,
        saveGraph settings request (first.run steps).graph = .ok document →
        ∃ saved workflow, document = replaceSection request.previous workflow
          ∧ Fields.get workflow "nodes" = .list (saved.map Value.obj)
          ∧ List.Forall₂ (fun node out => idOf out = idOf node
            ∧ (keepsTransitions (dataOf node) = true → ∃ items,
              cachedTransitions (dataOf node) = .list items
                ∧ List.Forall₂ (fun item cached => restates item cached = true)
                  (transitionItems out) items)) nodes saved := by
  have hrun := (consistent_ofConfig hconfig hfirst).run hsteps
  obtain ⟨nodes, edges, hgraph, hc⟩ := hrun _ List.mem_cons_self
  refine ⟨nodes, edges, hgraph, hc.copies, ?_, hc.ids, hc.labelled, ?_⟩
  · rw [hgraph]
    exact sync_of_copies hc.copies
  · intro settings request document hsave
    rw [hgraph] at hsave
    obtain ⟨saved, workflow, hdocument, hentries, hall⟩ := saveGraph_ofObjects hsave
    exact ⟨saved, workflow, hdocument, hentries,
      forall₂_imp_of_mem hall fun node hnode out hout => hc.restates_saveNode hnode hout⟩

/-- A workflow of one node, with a transition back to it. -/
def loopConfig (priority : Value) : Value :=
  .obj [("nodes", .list [.obj [("id", .str "a"),
    ("_metadata", .obj [("position", .obj [("x", .int 0)])]),
    ("transitions", .list [.obj [("target", .str "a"), ("priority", priority)]])]])]

/-- The session on that workflow. -/
def loopSession (priority : Value) : Session where
  graph := (Graph.ofObjects
    [[("id", .str "a"), ("type", .str "standardNode"), ("position", .obj [("x", .int 0)]),
      ("data", .obj [("id", .str "a"), ("_metadata", .obj [("position", .obj [("x", .int 0)])]),
        ("transitions", .list [.obj [("condition", .str "always"), ("target", .str "a"),
          ("priority", priority)]]), ("type", .str "standard")])]]
    [[("id", .str "a-a-0"), ("source", .str "a"), ("target", .str "a"), ("label", .str "always"),
      ("data", .obj [("condition", .str "always"), ("priority", priority)])]]).toValue

/-- Drawing an edge, replacing it from the panel, and taking that back, on a
workflow of one node. -/
theorem agreement_run_loop :
    ∃ first, ofConfig .default (loopConfig (.int 1)) = .ok first
      ∧ ∃ nodes edges, (first.run [.connect (.str "a") (.str "b") (.str "timeout") (.int 0),
          .setTransitions (.str "a") (.list []), .undo]).graph
            = (Graph.ofObjects nodes edges).toValue
        ∧ (∀ node ∈ nodes, Copies edges node) ∧ (edges.map idOf).Nodup := by
  have hfirst : ofConfig .default (loopConfig (.int 1)) = .ok (loopSession (.int 1)) := by
    decide +kernel
  have hsteps : (loopSession (.int 1)).admits [.connect (.str "a") (.str "b") (.str "timeout")
      (.int 0), .setTransitions (.str "a") (.list []), .undo] = true := by decide +kernel
  obtain ⟨nodes, edges, hgraph, hcopies, _, hids, _⟩ := agreement_run (by decide) hfirst hsteps
  exact ⟨_, hfirst, nodes, edges, hgraph, hcopies, hids⟩

/-- **A node whose priority is undefined is reported although its list is a
copy**, right at the start of a session. -/
theorem updated_of_undefined_priority :
    ∃ first synced, ofConfig .default (loopConfig (.float Binary.notANumber)) = .ok first
      ∧ sync first.graph none = .ok synced ∧ synced.updated ≠ [] := by
  have hsync : Synced.updated <$> sync (loopSession (.float Binary.notANumber)).graph none
      = .ok ["a"] := by decide +kernel
  obtain ⟨synced, hsynced, hupdated⟩ := Outcome.map_eq_ok.mp hsync
  refine ⟨loopSession (.float Binary.notANumber), synced, by decide +kernel, hsynced, ?_⟩
  rw [hupdated]
  exact List.cons_ne_nil _ _

end Session

end CallFlow

import CallFlow.Proofs.Config.Unnoticed

/-!
# What an editor keeps for itself

A graph holds more than a document does: where a node stands and how it is
drawn, the copy of its transitions, the ids of edges, the label an edge shows
beside its condition, and whatever else an editor writes down. Two graphs that
differ in nothing but that describe *the same workflow* (`SameWorkflow`). They
need not list their edges in the same order either, as long as those from one
node come in theirs, and what is no object in a list does not count.

Graphs of the same workflow are saved as the same document, and a graph brought
into agreement is saved as it was.
-/

namespace CallFlow

/-- **Whether two nodes differ at most in what an editor keeps for itself**:
they state one id, and their data are the same but for the list of
transitions. -/
structure SameNode (node node' : Fields) : Prop where
  /-- They state one id. -/
  id : Fields.get node' "id" = Fields.get node "id"
  /-- Their data are the same but for the list of transitions. -/
  data : Fields.erase (dataOf node') "transitions" = Fields.erase (dataOf node) "transitions"

/-- **Whether two edges differ at most in what an editor keeps for itself**:
they have the same ends, condition and priority, and where they state no
condition the same label. -/
structure SameEdge (edge edge' : Fields) : Prop where
  /-- They start from one node. -/
  source : Fields.get edge' "source" = Fields.get edge "source"
  /-- They lead to one node. -/
  target : Fields.get edge' "target" = Fields.get edge "target"
  /-- Their data state one condition. -/
  condition : Fields.get (dataOf edge') "condition" = Fields.get (dataOf edge) "condition"
  /-- Their data state one priority. -/
  priority : Fields.get (dataOf edge') "priority" = Fields.get (dataOf edge) "priority"
  /-- Where no condition is stated they show one label. -/
  label : (Fields.get (dataOf edge) "condition").truthy = false →
    Fields.get edge' "label" = Fields.get edge "label"

/-- **Whether two graph documents describe the same workflow**: the objects
among their nodes differ at most in what an editor keeps for itself, and so do
those among their edges, taken source by source. -/
def SameWorkflow (graph graph' : Value) : Prop :=
  ∃ nodes nodes' edges edges',
    (nodesOf graph = .ok nodes ∧ edgesOf graph = .ok edges)
    ∧ (nodesOf graph' = .ok nodes' ∧ edgesOf graph' = .ok edges')
    ∧ List.Forall₂ SameNode (objectsAmong nodes) (objectsAmong nodes')
    ∧ ∀ source, List.Forall₂ SameEdge
        ((objectsAmong edges).filter fun edge => sourceOf edge = source)
        ((objectsAmong edges').filter fun edge => sourceOf edge = source)

/-! ## Nodes and edges -/

/-- **A node is saved without what an editor keeps for itself**, where places
are not kept. -/
theorem SameNode.saveNode_eq {node node' : Fields} (h : SameNode node node')
    (edges : List Fields) : saveNode edges false node' = saveNode edges false node := by
  have hget {key : String} (hkey : key ≠ "transitions") :
      Fields.get (dataOf node') key = Fields.get (dataOf node) key := by
    rw [← get_erase_transitions _ hkey, h.data, get_erase_transitions _ hkey]
  refine saveNode_congr ?_ (savedAlike_of_erase h.data) (hget (by decide))
    fun hkeep => absurd hkeep Bool.false_ne_true
  rw [savedId, savedId, h.id, hget (by decide)]

/-- **Edges that differ in what an editor keeps for itself say the same
transition.** -/
theorem SameEdge.ofEdge_eq {edge edge' : Fields} (h : SameEdge edge edge') :
    Transition.ofEdge edge' = Transition.ofEdge edge := by
  have hcondition : (Fields.get (dataOf edge') "condition").orElse (Fields.get edge' "label")
      = (Fields.get (dataOf edge) "condition").orElse (Fields.get edge "label") := by
    rw [h.condition]
    by_cases hstated : (Fields.get (dataOf edge) "condition").truthy = true
    · -- the label is not looked at
      rw [Value.orElse_of_truthy hstated, Value.orElse_of_truthy hstated]
    · rw [h.label (by simpa using hstated)]
  unfold Transition.ofEdge
  simp only [hcondition, h.target, h.priority]

/-- **Edges that differ in what an editor keeps for itself say of every node the
same transitions.** -/
theorem outgoing_of_sameEdge {edges edges' : List Fields} (h : List.Forall₂ SameEdge edges edges')
    (id : String) : outgoing edges' id = outgoing edges id := by
  refine outgoing_congr (h.imp fun edge edge' hedge => ⟨?_, fun _ => hedge.ofEdge_eq⟩)
  rw [sourceOf, hedge.source, sourceOf]

/-! ## Graphs -/

/-- **Nothing an editor keeps for itself reaches a document**: graphs of the
same workflow are saved as the same document where places are not kept, over
whatever document and with whatever edits and settings; and a graph is saved
after it is brought into agreement as it was before. -/
theorem saveGraph_eq_of_sameWorkflow (settings : Settings) (request : SaveRequest) :
    (request.keepPositions = false → ∀ graph graph', SameWorkflow graph graph' →
      saveGraph settings request graph' = saveGraph settings request graph)
    ∧ ∀ graph ids synced, sync graph ids = .ok synced →
      saveGraph settings request (synced.revision.apply graph)
        = saveGraph settings request graph := by
  refine ⟨fun hkeep graph graph' h => ?_, fun graph ids synced hsync => ?_⟩
  · obtain ⟨ns, ns', es, es', ⟨hns, hes⟩, ⟨hns', hes'⟩, hnodes, hedges⟩ := h
    refine saveGraph_congr_lists hns hns' hes hes' (fun id => ?_) ?_
    · exact map_eq_map_of_forall₂ ((hedges id).imp fun _ _ hedge => hedge.ofEdge_eq)
    · rw [hkeep]
      exact hnodes.imp fun _ _ hnode => hnode.saveNode_eq _
  · obtain ⟨es, ns, ns', hes, hns, hes', hns', hnodes⟩ := relisted_of_sync hsync
    refine saveGraph_congr_lists hns hns' hes hes' (fun _ => rfl) ?_
    rw [objectsAmong_map_obj, objectsAmong_map_obj]
    exact hnodes.imp fun _ _ hnode => hnode.saveNode_eq

/-- A greeting that leads to a node of a kind of its own and comes back from
there, as an editor has it that has written nothing else down. -/
def plainGraph : Value :=
  .obj [("nodes", .list [
      .obj [("id", .str "greet"), ("data", .obj [("static_text", .str "Hello.")])],
      .obj [("id", .str "muse"), ("data", .obj [("type", .str "oracle"), ("mood", .int 7)])]]),
    ("edges", .list [
      .obj [("source", .str "greet"), ("target", .str "muse"),
        ("data", .obj [("condition", .str "user_asks"), ("priority", .int 2)])],
      .obj [("source", .str "muse"), ("target", .str "greet"), ("label", .str "user_sighs")]])]

/-- The same workflow in an editor that has written down a good deal. -/
def scribbledGraph : Value :=
  .obj [("viewport", .int 3), ("nodes", .list [.null,
      .obj [("id", .str "greet"), ("type", .str "bubble"), ("selected", .bool true),
        ("position", .obj [("x", .int 40), ("y", .int 2)]),
        ("data", .obj [("transitions", .list [.int 1]), ("static_text", .str "Hello.")])],
      .str "a note",
      .obj [("id", .str "muse"), ("position", .obj [("x", .int 1)]),
        ("data", .obj [("type", .str "oracle"), ("mood", .int 7), ("transitions", .int 0)])]]),
    ("edges", .list [
      .obj [("id", .str "e2"), ("source", .str "muse"), ("target", .str "greet"),
        ("label", .str "user_sighs"), ("data", .obj [("hue", .str "blue")])],
      .bool false,
      .obj [("id", .str "e1"), ("source", .str "greet"), ("target", .str "muse"),
        ("label", .str "asks!"), ("animated", .bool true),
        ("data", .obj [("condition", .str "user_asks"), ("priority", .int 2)])]])]

/-- Both graphs are saved as one document, and so is either after its lists of
transitions are brought into agreement. -/
theorem saveGraph_scribbledGraph :
    SameWorkflow plainGraph scribbledGraph
      ∧ saveGraph .default {} scribbledGraph = saveGraph .default {} plainGraph
      ∧ ∃ synced, sync plainGraph none = .ok synced ∧ synced.updated = ["greet", "muse"]
        ∧ saveGraph .default {} (synced.revision.apply plainGraph)
          = saveGraph .default {} plainGraph := by
  have hsame : SameWorkflow plainGraph scribbledGraph := by
    refine ⟨_, _, _, _, ⟨rfl, rfl⟩, ⟨rfl, rfl⟩, ?_, fun source => ?_⟩
    · exact .cons ⟨rfl, rfl⟩ (.cons ⟨rfl, rfl⟩ .nil)
    · -- one edge from either node, and none from anywhere else
      by_cases hgreet : source = "greet"
      · subst hgreet
        exact .cons ⟨rfl, rfl, rfl, rfl, fun h => absurd h (by decide)⟩ .nil
      by_cases hmuse : source = "muse"
      · subst hmuse
        exact .cons ⟨rfl, rfl, rfl, rfl, fun _ => rfl⟩ .nil
      have hnone : ∀ edges : List Fields, (∀ edge ∈ edges, sourceOf edge ∈ ["greet", "muse"]) →
          edges.filter (fun edge => sourceOf edge = source) = [] := by
        intro edges hall
        refine List.filter_eq_nil_iff.mpr fun edge hedge => ?_
        have := hall edge hedge
        grind
      rw [hnone _ (by decide), hnone _ (by decide)]
      exact .nil
  obtain ⟨hsaved, hsynced⟩ := saveGraph_eq_of_sameWorkflow .default {}
  refine ⟨hsame, hsaved rfl _ _ hsame, ?_⟩
  obtain ⟨synced, hsync, hupdated⟩ : ∃ synced, sync plainGraph none = .ok synced
      ∧ synced.updated = ["greet", "muse"] := ⟨_, rfl, rfl⟩
  exact ⟨synced, hsync, hupdated, hsynced _ _ _ hsync⟩

end CallFlow

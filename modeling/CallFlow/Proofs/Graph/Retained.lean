import CallFlow.Proofs.Graph.NodeEdits

/-!
# What an edit leaves in place

A graph document *states its lists* if there is a collection of objects under
either of its two keys, and no third key (`StatesLists`). Every edit of such a
document leaves one, whatever it is asked for: objects are made of objects,
and what was handed in goes into fields of theirs (`Retains`).

Most edits leave everything in place, that is, for every node and every edge
there was there is one with its id afterwards. Three do not. Removing an edge
removes those of its id, removing a node removes those of its id and the edges
at either end of which it stands, and replacing the list of a node drops the
edges from it. The edges that are made anew then may happen to have the old
ids, or may not.
-/

namespace CallFlow

/-! ## Documents that state their lists -/

/-- What a graph document holds under a key, which it has to have. -/
def listedUnder (document : Value) (key : String) : Outcome (List Value) := do
  match Fields.get? (← document.object) key with
  | some elements => elements.elements
  | none => .error .missingField

/-- **Whether a graph document states its lists**: under either key there is a
collection, all it holds are objects, and there is no other key. -/
structure StatesLists (document : Value) (nodes edges : List Fields) : Prop where
  /-- The nodes are stated. -/
  nodes : listedUnder document "nodes" = .ok (nodes.map Value.obj)
  /-- The edges are stated. -/
  edges : listedUnder document "edges" = .ok (edges.map Value.obj)
  /-- Nothing else is. -/
  keys : Revision.unchanged document = .ok .kept

theorem statesLists_toValue (nodes edges : List Fields) :
    StatesLists (Graph.ofObjects nodes edges).toValue nodes edges := ⟨rfl, rfl, rfl⟩

/-- Whether a graph document states its lists, whatever they are. -/
def IsListed (document : Value) : Prop := ∃ nodes edges, StatesLists document nodes edges

/-- What is held under a key is what is listed there; a key that is missing
counts as an empty list only for the latter. -/
theorem elementsOrNone_of_listedUnder {document : Value} {key : String} {values : List Value}
    (h : listedUnder document key = .ok values) :
    (do (Fields.get (← document.object) key).elementsOrNone) = .ok values := by
  obtain ⟨fields, hfields, h⟩ := Outcome.bind_eq_ok.mp h
  rw [hfields, Outcome.ok_bind, Fields.get]
  cases hread : Fields.get? fields key with
  | none =>
    rw [hread] at h
    cases h
  | some elements =>
    rw [hread] at h
    rw [Option.getD_some, Value.elementsOrNone]
    split
    · exact h
    next hblank =>
      -- a blank collection holds nothing
      cases elements with
      | list items =>
        cases items with
        | nil => exact h
        | cons item items => exact absurd rfl hblank
      | str s =>
        have hempty : s = "" := by simpa [Value.truthy] using hblank
        subst hempty
        exact h
      | obj fields =>
        cases fields with
        | nil => exact h
        | cons f fields => exact absurd rfl hblank
      | _ => cases h

namespace StatesLists

variable {document : Value} {nodes edges : List Fields} (h : StatesLists document nodes edges)

include h

theorem nodesOf_eq : nodesOf document = .ok (nodes.map Value.obj) :=
  elementsOrNone_of_listedUnder h.nodes

theorem edgesOf_eq : edgesOf document = .ok (edges.map Value.obj) :=
  elementsOrNone_of_listedUnder h.edges

end StatesLists

/-- A graph that states its lists is the graph they are. -/
theorem StatesLists.eq_ofObjects {g : Graph} {nodes edges : List Fields}
    (h : StatesLists g.toValue nodes edges) : g = Graph.ofObjects nodes edges := by
  obtain ⟨values, others⟩ := g
  have hnodes := h.nodesOf_eq
  have hedges := h.edgesOf_eq
  rw [nodesOf_toValue] at hnodes
  rw [edgesOf_toValue] at hedges
  rw [Graph.ofObjects, ← Except.ok.inj hnodes, ← Except.ok.inj hedges]

/-- The ids of the nodes of a graph document. -/
def nodeIds (document : Value) : List String :=
  match nodesOf document with
  | .ok nodes => (objectsAmong nodes).map idOf
  | .error _ => []

/-- The ids of the edges of a graph document. -/
def edgeIds (document : Value) : List String :=
  match edgesOf document with
  | .ok edges => (objectsAmong edges).map idOf
  | .error _ => []

section Ids

variable {document : Value} {nodes edges : List Fields}

theorem Holds.nodeIds_eq (h : Holds document nodes edges) : nodeIds document = nodes.map idOf := by
  rw [nodeIds, h.nodesOf_eq]
  exact congrArg _ (objectsAmong_map_obj nodes)

theorem Holds.edgeIds_eq (h : Holds document nodes edges) : edgeIds document = edges.map idOf := by
  rw [edgeIds, h.edgesOf_eq]
  exact congrArg _ (objectsAmong_map_obj edges)

variable (h : StatesLists document nodes edges)

include h

theorem StatesLists.holds : Holds document nodes edges := ⟨h.nodesOf_eq, h.edgesOf_eq⟩

theorem StatesLists.nodeIds_eq : nodeIds document = nodes.map idOf := h.holds.nodeIds_eq

theorem StatesLists.edgeIds_eq : edgeIds document = edges.map idOf := h.holds.edgeIds_eq

end Ids

/-! ## Retained nodes and edges -/

/-- **What a document retains of a graph**: it states its lists, and has a node
with the id of each of certain nodes, and an edge with the id of each of
certain edges. -/
def Retains (nodes edges : List Fields) (keptNode keptEdge : Fields → Prop) (document : Value) :
    Prop :=
  ∃ nodes' edges', StatesLists document nodes' edges'
    ∧ (∀ node ∈ nodes, keptNode node → idOf node ∈ nodes'.map idOf)
    ∧ ∀ edge ∈ edges, keptEdge edge → idOf edge ∈ edges'.map idOf

section Retained

variable {nodes edges : List Fields} {keptNode keptEdge : Fields → Prop} {revision : Revision}

theorem Retains.weaken {document : Value} {keptEdge' : Fields → Prop}
    (h : Retains nodes edges keptNode keptEdge document)
    (hedge : ∀ edge, keptEdge' edge → keptEdge edge) :
    Retains nodes edges keptNode keptEdge' document := by
  obtain ⟨nodes', edges', hstates, hnodes, hedges⟩ := h
  exact ⟨nodes', edges', hstates, hnodes,
    fun edge hmem hkept => hedges edge hmem (hedge edge hkept)⟩

theorem retains_self {document : Value} (h : StatesLists document nodes edges) :
    Retains nodes edges keptNode keptEdge document :=
  ⟨nodes, edges, h, fun _ hnode _ => List.mem_map_of_mem hnode,
    fun _ hedge _ => List.mem_map_of_mem hedge⟩

/-- **Bringing a graph into agreement retains what the graph does.** -/
theorem Revision.Resyncs.retains {nodes₁ edges₁ : List Fields} {scope : List String}
    (h : revision.Resyncs (Graph.ofObjects nodes edges).toValue nodes₁ edges₁ scope)
    (hnodes : ∀ node ∈ nodes, keptNode node → idOf node ∈ nodes₁.map idOf)
    (hedges : ∀ edge ∈ edges, keptEdge edge → idOf edge ∈ edges₁.map idOf) :
    Retains nodes edges keptNode keptEdge
      (revision.apply (Graph.ofObjects nodes edges).toValue) := by
  obtain ⟨nodes', hcomes, hall⟩ := h
  have hids : nodes'.map idOf = nodes₁.map idOf :=
    map_eq_map_of_forall₂ (hall.imp fun _ _ hsynced => hsynced.relisted.idOf_eq)
  rw [hcomes.apply_eq]
  exact ⟨nodes', edges₁, statesLists_toValue nodes' edges₁,
    fun node hnode hkept => hids ▸ hnodes node hnode hkept, hedges⟩

theorem Revision.ComesTo.retains
    (h : revision.ComesTo (Graph.ofObjects nodes edges).toValue nodes edges) :
    Retains nodes edges keptNode keptEdge
      (revision.apply (Graph.ofObjects nodes edges).toValue) := by
  rw [h.apply_eq]
  exact retains_self (statesLists_toValue nodes edges)

/-! ## Edits on the canvas -/

/-- **Drawing an edge retains everything**, whatever the ends are. -/
theorem retains_connectNodes {source target condition priority : Value}
    (h : connectNodes (Graph.ofObjects nodes edges).toValue source target condition priority
      = .ok revision) :
    Retains nodes edges keptNode keptEdge
      (revision.apply (Graph.ofObjects nodes edges).toValue) := by
  obtain ⟨_, hcomes⟩ | ⟨_, scope, id, _, _, hresyncs⟩ :=
    connectNodes_resyncs (holds_toValue nodes edges) h
  · exact hcomes.retains
  · exact hresyncs.retains (fun _ hnode _ => List.mem_map_of_mem hnode)
      fun _ hedge _ => List.mem_map_of_mem (List.mem_append_left _ hedge)

/-- **Removing edges retains those whose id is not asked for.** -/
theorem retains_removeEdges {id : Value}
    (h : removeEdges (Graph.ofObjects nodes edges).toValue (.list [id]) = .ok revision) :
    Retains nodes edges keptNode (fun edge => Value.str (idOf edge) ≠ id)
      (revision.apply (Graph.ofObjects nodes edges).toValue) := by
  obtain ⟨doomed, hdoomed, hresyncs⟩ := removeEdges_resyncs (holds_toValue nodes edges) h
  refine hresyncs.retains (fun _ hnode _ => List.mem_map_of_mem hnode) fun edge hedge hne => ?_
  refine List.mem_map_of_mem (List.mem_filter.mpr ⟨hedge, ?_⟩)
  -- only the one id that was asked for is doomed
  have hout : idOf edge ∉ doomed := by
    intro hmem
    cases id with
    | str name =>
      obtain rfl := Except.ok.inj hdoomed
      exact hne (congrArg Value.str (List.mem_singleton.mp hmem))
    | list items => cases hdoomed
    | obj fields => cases hdoomed
    | _ =>
      obtain rfl := Except.ok.inj hdoomed
      cases hmem
  simpa using hout

/-- **Relabelling an edge retains everything.** -/
theorem retains_updateEdge {id condition priority : Value}
    (h : updateEdge (Graph.ofObjects nodes edges).toValue id condition priority = .ok revision) :
    Retains nodes edges keptNode keptEdge
      (revision.apply (Graph.ofObjects nodes edges).toValue) := by
  obtain ⟨edges', hall, hresyncs⟩ := updateEdge_resyncs (holds_toValue nodes edges) h
  have hids : edges'.map idOf = edges.map idOf :=
    map_eq_map_of_forall₂ (hall.imp fun _ _ hto => hto.idOf_eq)
  exact hresyncs.retains (fun _ hnode _ => List.mem_map_of_mem hnode)
    fun _ hedge _ => hids ▸ List.mem_map_of_mem hedge

/-! ## Edits of nodes -/

theorem map_idOf_listedAs (name : String) (items : List Value) (nodes : List Fields) :
    (nodes.map (listedAs name items)).map idOf = nodes.map idOf := by
  rw [List.map_map]
  exact List.map_congr_left fun node _ => (relisted_listedAs name items node).idOf_eq

theorem mem_relistedEdges {name : String} {items : List Value} {edge : Fields}
    (hedge : edge ∈ edges) (hne : sourceOf edge ≠ name) : edge ∈ relistedEdges name items edges :=
  List.mem_append_left _ (List.mem_filter.mpr ⟨hedge, decide_eq_true hne⟩)

/-- **Replacing the list of a node retains every node, and the edges from all
others.** -/
theorem retains_replaceTransitions {id transitions : Value}
    (h : replaceTransitions (Graph.ofObjects nodes edges).toValue id transitions = .ok revision) :
    Retains nodes edges keptNode (fun edge => Value.str (sourceOf edge) ≠ id)
      (revision.apply (Graph.ofObjects nodes edges).toValue) := by
  obtain ⟨_, hcomes⟩ | ⟨name, elements, rfl, _, _, hresyncs⟩ :=
    replaceTransitions_resyncs (holds_toValue nodes edges) h
  · exact hcomes.retains
  · refine hresyncs.retains (fun node hnode _ => ?_) fun edge hedge hne => ?_
    · rw [map_idOf_listedAs]
      exact List.mem_map_of_mem hnode
    · exact List.mem_map_of_mem
        (mem_relistedEdges hedge fun hfrom => hne (congrArg Value.str hfrom))

/-- Whether an edit of a node's data replaces its list: the list is among the
fields it states. -/
def replacesList (updates : Value) : Bool :=
  match updates.asFields with
  | .ok changes => Fields.has changes "transitions"
  | .error _ => false

/-- **Changing fields of a node retains every node, and every edge** unless
the list is among the fields; then it retains the edges from all other
nodes. -/
theorem retains_updateNodeData {id updates : Value}
    (h : updateNodeData (Graph.ofObjects nodes edges).toValue id updates = .ok revision) :
    Retains nodes edges keptNode
      (fun edge => replacesList updates = true → Value.str (sourceOf edge) ≠ id)
      (revision.apply (Graph.ofObjects nodes edges).toValue) := by
  obtain ⟨stated, hstated, ⟨_, hcomes⟩ | ⟨name, nodes', rfl, _, hall, hrest⟩⟩ :=
    updateNodeData_resyncs (holds_toValue nodes edges) h
  · exact hcomes.retains
  have hids : nodes'.map idOf = nodes.map idOf :=
    map_eq_map_of_forall₂ (hall.imp fun _ _ hto => hto.idOf_eq)
  obtain ⟨_, hcomes⟩ | ⟨transitions, elements, hread, _, hresyncs⟩ := hrest
  · exact hcomes.resyncs.retains (fun _ hnode _ => hids ▸ List.mem_map_of_mem hnode)
      fun _ hedge _ => List.mem_map_of_mem hedge
  · have hreplaces : replacesList updates = true := by
      rw [replacesList, hstated]
      exact Option.isSome_iff_exists.mpr ⟨_, hread⟩
    refine hresyncs.retains (fun node hnode _ => ?_) fun edge hedge hne => ?_
    · rw [map_idOf_listedAs, hids]
      exact List.mem_map_of_mem hnode
    · exact List.mem_map_of_mem
        (mem_relistedEdges hedge fun hfrom => hne hreplaces (congrArg Value.str hfrom))

/-- **Removing a node retains every other node.** -/
theorem retains_deleteNode {id : Value}
    (h : deleteNode (Graph.ofObjects nodes edges).toValue id = .ok revision) :
    Retains nodes edges (fun node => Value.str (idOf node) ≠ id)
      (fun edge => Value.str (sourceOf edge) ≠ id ∧ Value.str (targetOf edge) ≠ id)
      (revision.apply (Graph.ofObjects nodes edges).toValue) := by
  refine (deleteNode_resyncs (holds_toValue nodes edges) h).retains (fun node hnode hne => ?_)
    fun edge hedge hne => ?_
  · exact List.mem_map_of_mem (List.mem_filter.mpr ⟨hnode, decide_eq_true hne⟩)
  · refine List.mem_map_of_mem (List.mem_filter.mpr ⟨hedge, ?_⟩)
    rw [decide_eq_true hne.1, decide_eq_true hne.2, Bool.and_self]

/-- **Removing a node leaves a graph that states its lists**, whether or not
there was one before. -/
theorem isListed_deleteNode {document id : Value} (h : deleteNode document id = .ok revision) :
    IsListed (revision.apply document) := by
  obtain ⟨nodeValues, _, h⟩ := Outcome.bind_eq_ok.mp h
  obtain ⟨nodes, _, h⟩ := Outcome.bind_eq_ok.mp h
  obtain ⟨edgeValues, _, h⟩ := Outcome.bind_eq_ok.mp h
  obtain ⟨edges, _, h⟩ := Outcome.bind_eq_ok.mp h
  dsimp only at h
  split at h
  · cases h
  · obtain ⟨g, hsync, h⟩ := Outcome.bind_eq_ok.mp h
    obtain rfl := Except.ok.inj h
    -- both lists are made of objects here, so nothing else is asked of them
    obtain ⟨nodes', rfl, _⟩ := exists_of_graph_sync hsync
    exact ⟨nodes', _, statesLists_toValue nodes' _⟩

/-- **Adding a node retains everything.** -/
theorem retains_addNode {kind position given id : Value} {draw : Draw}
    (h : addNode (Graph.ofObjects nodes edges).toValue kind position given draw
      = .ok (revision, id)) :
    Retains nodes edges keptNode keptEdge
      (revision.apply (Graph.ofObjects nodes edges).toValue) := by
  obtain ⟨node, hcomes, _⟩ := addNode_comesTo (holds_toValue nodes edges) h
  exact hcomes.resyncs.retains
    (fun _ hnode _ => List.mem_map_of_mem (List.mem_append_left _ hnode))
    fun _ hedge _ => List.mem_map_of_mem hedge

end Retained

end CallFlow

import CallFlow.Config.Saving
import CallFlow.Proofs.Graph.Revisions

/-!
# Edits keep a graph consistent

A graph is *consistent* if the list of every node is a copy of the edges, no
two edges share an id, every edge is labelled by its condition, and the data
of a node state no other id than the node. Every edit of a consistent graph
leaves a consistent graph.

An edit brings only some nodes into agreement, and that is enough for two
reasons. A node outside its scope has the very edges it had, which is what
`outgoing_filter`, `outgoing_append` and `outgoing_congr` are for. And where
an edit relabels an edge, no other edge has its id, so that the node it
starts from is the only one to see the difference: the copies could not be
kept without keeping the ids apart.
-/

namespace CallFlow

/-- **A graph in agreement with itself**, made of objects. -/
structure Consistent (nodes edges : List Fields) : Prop where
  /-- The list of every node is a copy of the edges. -/
  copies : ∀ node ∈ nodes, Copies edges node
  /-- No two edges share an id. -/
  ids : (edges.map idOf).Nodup
  /-- Every edge is labelled by its condition. -/
  labelled : ∀ edge ∈ edges, Labelled edge
  /-- No priority has two fields under one key. -/
  priorities : ∀ edge ∈ edges, (Transition.ofEdge edge).priority.wellFormed = true
  /-- The data of a node state no other id than the node. -/
  named : ∀ node ∈ nodes, savedId node (dataOf node) = idOf node

/-- Whether a document is a consistent graph. -/
def IsConsistent (document : Value) : Prop :=
  ∃ nodes edges, document = (Graph.ofObjects nodes edges).toValue ∧ Consistent nodes edges

/-! ## Agreement restored on a scope -/

theorem Relisted.savedId_eq {node node' : Fields} (h : Relisted node node') :
    savedId node' (dataOf node') = savedId node (dataOf node) := by
  rcases h with rfl | ⟨transitions, rfl⟩
  · rfl
  · rw [dataOf_withTransitions, savedId, savedId, withTransitions,
      Fields.get_put_of_ne _ _ (by simp), Fields.get_put_of_ne _ _ (by simp)]

/-- Nodes brought into agreement with edges that are fit for it are
consistent with them. -/
theorem Consistent.of_relisted {nodes nodes' edges : List Fields}
    (hids : (edges.map idOf).Nodup) (hlabelled : ∀ edge ∈ edges, Labelled edge)
    (hpriorities : ∀ edge ∈ edges, (Transition.ofEdge edge).priority.wellFormed = true)
    (hnamed : ∀ node ∈ nodes, savedId node (dataOf node) = idOf node)
    (hall : List.Forall₂ (fun node node' => Relisted node node' ∧ Copies edges node')
      nodes nodes') : Consistent nodes' edges := by
  refine ⟨fun node' hmem => ?_, hids, hlabelled, hpriorities, fun node' hmem => ?_⟩
  · obtain ⟨_, _, _, hcopies⟩ := exists_of_mem_right hall hmem
    exact hcopies
  · obtain ⟨node, hnode, hrel, _⟩ := exists_of_mem_right hall hmem
    rw [hrel.savedId_eq, hrel.idOf_eq]
    exact hnamed node hnode

/-- **An edit may leave out every node whose edges it did not touch**: if
the lists of the nodes outside the scope are copies, bringing the scope into
agreement makes the graph consistent. -/
theorem Revision.Resyncs.isConsistent {nodes edges nodes₁ edges₁ : List Fields}
    {scope : List String} {revision : Revision}
    (h : revision.Resyncs (Graph.ofObjects nodes edges).toValue nodes₁ edges₁ scope)
    (hids : (edges₁.map idOf).Nodup) (hlabelled : ∀ edge ∈ edges₁, Labelled edge)
    (hpriorities : ∀ edge ∈ edges₁, (Transition.ofEdge edge).priority.wellFormed = true)
    (hnamed : ∀ node ∈ nodes₁, savedId node (dataOf node) = idOf node)
    (houtside : ∀ node ∈ nodes₁, idOf node ∉ scope → Copies edges₁ node) :
    IsConsistent (revision.apply (Graph.ofObjects nodes edges).toValue) := by
  obtain ⟨nodes', hcomes, hall⟩ := h
  exact ⟨nodes', edges₁, hcomes.apply_eq, .of_relisted hids hlabelled hpriorities hnamed
    (copies_of_syncedTo hpriorities
      (fun node hnode hout => houtside node hnode (by simpa [inScope] using hout)) hall)⟩

/-- A list stays a copy as long as the node says the same id and list and
its edges say the same. -/
theorem Copies.congr {edges edges' : List Fields} {node node' : Fields} (h : Copies edges node)
    (hid : idOf node' = idOf node)
    (hlist : Fields.get (dataOf node') "transitions" = Fields.get (dataOf node) "transitions")
    (hedges : outgoing edges' (idOf node) = outgoing edges (idOf node)) :
    Copies edges' node' := by
  obtain ⟨items, hitems, hcopy⟩ := h
  refine ⟨items, ?_, ?_⟩
  · rw [cachedTransitions, hlist]
    exact hitems
  · rw [hid, hedges]
    exact hcopy

/-- **Edges may be left out if the nodes they start from are brought into
agreement**, and nodes may be left out in any case. -/
theorem Consistent.resyncs_filter {nodes nodes₁ edges : List Fields} (hc : Consistent nodes edges)
    {p : Fields → Bool} {scope : List String} {revision : Revision}
    (hsub : List.Sublist nodes₁ nodes)
    (hscope : ∀ node ∈ nodes₁, idOf node ∉ scope →
      ∀ edge ∈ edges, sourceOf edge = idOf node → p edge = true)
    (h : revision.Resyncs (Graph.ofObjects nodes edges).toValue nodes₁ (edges.filter p) scope) :
    IsConsistent (revision.apply (Graph.ofObjects nodes edges).toValue) :=
  h.isConsistent (hc.ids.sublist ((List.filter_sublist).map idOf))
    (fun edge he => hc.labelled edge (List.mem_of_mem_filter he))
    (fun edge he => hc.priorities edge (List.mem_of_mem_filter he))
    (fun node hn => hc.named node (hsub.subset hn))
    (fun node hn hout => (hc.copies node (hsub.subset hn)).congr rfl rfl
      (outgoing_filter (hscope node hn hout)))

theorem Consistent.comesTo {nodes edges nodes₁ edges₁ : List Fields}
    (hc : Consistent nodes₁ edges₁) {revision : Revision}
    (h : revision.ComesTo (Graph.ofObjects nodes edges).toValue nodes₁ edges₁) :
    IsConsistent (revision.apply (Graph.ofObjects nodes edges).toValue) :=
  ⟨nodes₁, edges₁, h.apply_eq, hc⟩

/-! ## Edits on the canvas -/

section Canvas

variable {nodes edges : List Fields} {revision : Revision}

/-- The edge that is drawn between two nodes. -/
def drawnEdge (id source target : String) (condition priority : Value) : Fields :=
  [("id", .str id), ("source", .str source), ("target", .str target), ("label", condition),
    ("data", .obj [("condition", condition), ("priority", priority)])]

section Drawn

variable (id source target : String) (condition priority : Value)

@[simp] theorem idOf_drawnEdge : idOf (drawnEdge id source target condition priority) = id := by
  simp [idOf, drawnEdge, Fields.get, Fields.get?]

@[simp] theorem sourceOf_drawnEdge :
    sourceOf (drawnEdge id source target condition priority) = source := by
  simp [sourceOf, drawnEdge, Fields.get, Fields.get?]

theorem labelled_drawnEdge : Labelled (drawnEdge id source target condition priority) := by
  refine ⟨[("condition", condition), ("priority", priority)], ?_, ?_⟩
  · simp [drawnEdge, Fields.get, Fields.get?]
  · simp [drawnEdge, Fields.get, Fields.get?]

theorem priority_drawnEdge :
    (Transition.ofEdge (drawnEdge id source target condition priority)).priority
      = priority.orElse defaultPriority := by
  simp [Transition.ofEdge, drawnEdge, Fields.get, Fields.get?, Value.fieldsOrNone]

end Drawn

/-- What drawing an edge between two named ends comes to. -/
theorem connectNodes_of_lists {document : Value} {nodes edges : List Fields}
    (hnodes : nodesOf document = .ok (nodes.map Value.obj))
    (hedges : edgesOf document = .ok (edges.map Value.obj)) {source target : String}
    (hs : source ≠ "") (ht : target ≠ "") (condition priority : Value) :
    connectNodes document (.str source) (.str target) condition priority
      = Revision.rebuilt <$> (Graph.ofObjects nodes (edges ++ [drawnEdge
          (EdgeId.allocate (edges.map idOf) source target edges.length).1 source target
          condition priority])).sync (some [source]) := by
  have hscope : (Value.list [.str source]).idSet = .ok [source] := rfl
  have hboth : (!(Value.str source).truthy || !(Value.str target).truthy) = false := by
    simp [Value.truthy, hs, ht]
  rw [connectNodes, if_neg (by simp [hboth]), hedges, hnodes]
  simp only [Graph.ofObjects, Outcome.ok_bind, elementIds_map_obj, hscope, Value.text_str,
    List.length_map, List.map_append, List.map_cons, List.map_nil]
  rfl

/-- **Drawing an edge keeps a graph consistent**: the id of the edge is new,
and only the node it starts from has one edge more. -/
theorem isConsistent_connectNodes (hc : Consistent nodes edges) {source target : String}
    {condition priority : Value} (hpriority : priority.wellFormed = true)
    (h : connectNodes (Graph.ofObjects nodes edges).toValue (.str source) (.str target)
      condition priority = .ok revision) :
    IsConsistent (revision.apply (Graph.ofObjects nodes edges).toValue) := by
  obtain ⟨_, hcomes⟩ | ⟨_, scope, id, hscope, hfresh, hresyncs⟩ :=
    connectNodes_resyncs (holds_toValue nodes edges) h
  · exact hc.comesTo hcomes
  · obtain rfl : [source] = scope := Except.ok.inj hscope
    have hdrawn : edgeBetween id (.str source) (.str target) condition priority
        = drawnEdge id source target condition priority := rfl
    rw [hdrawn] at hresyncs
    refine hresyncs.isConsistent ?_ ?_ ?_ hc.named ?_
    · rw [List.map_append, List.map_singleton, idOf_drawnEdge]
      exact List.nodup_append.mpr ⟨hc.ids, List.nodup_singleton id, fun a ha b hb => by
        rw [List.mem_singleton.mp hb]
        exact fun hab => hfresh (hab ▸ ha)⟩
    · intro edge hedge
      rcases List.mem_append.mp hedge with hold | hnew
      · exact hc.labelled edge hold
      · rw [List.mem_singleton.mp hnew]
        exact labelled_drawnEdge id source target condition priority
    · intro edge hedge
      rcases List.mem_append.mp hedge with hold | hnew
      · exact hc.priorities edge hold
      · rw [List.mem_singleton.mp hnew, priority_drawnEdge]
        exact Value.wellFormed_orElse hpriority rfl
    · intro node hmem hout
      refine (hc.copies node hmem).congr rfl rfl ?_
      -- the edge that was drawn starts from the node in the scope
      have hnew : ∀ edge ∈ [drawnEdge id source target condition priority],
          sourceOf edge ≠ idOf node := by
        intro edge hedge
        rw [List.mem_singleton.mp hedge, sourceOf_drawnEdge]
        exact fun hfrom => hout (List.mem_singleton.mpr hfrom.symm)
      rw [outgoing_append, outgoing_eq_nil hnew, List.append_nil]

/-- **Removing edges keeps a graph consistent**: every node an edge that is
removed starts from is in the scope. -/
theorem isConsistent_removeEdges (hc : Consistent nodes edges) {ids : Value}
    (h : removeEdges (Graph.ofObjects nodes edges).toValue ids = .ok revision) :
    IsConsistent (revision.apply (Graph.ofObjects nodes edges).toValue) := by
  obtain ⟨doomed, _, hresyncs⟩ := removeEdges_resyncs (holds_toValue nodes edges) h
  refine hc.resyncs_filter (List.Sublist.refl nodes) (fun node _ hout edge he hsource => ?_) hresyncs
  -- an edge that is removed would have put the node into the scope
  by_contra hdoomed
  refine hout (hsource ▸ List.mem_map_of_mem (List.mem_filter.mpr ⟨he, ?_⟩))
  simpa using hdoomed

/-- A transition with another condition and priority; null leaves either as
it is. -/
def Transition.relabelled (condition priority : Value) (t : Transition) : Transition where
  condition := if condition = .null then t.condition else condition.textOr defaultCondition
  target := t.target
  priority := if priority = .null then t.priority else priority.orElse defaultPriority

/-- An item with another condition and priority; null leaves either as it
is. -/
def relabelledItem (condition priority : Value) (item : Fields) : Fields :=
  putUnlessNull (putUnlessNull item "condition" condition) "priority" priority

/-- An edge with another condition and priority; null leaves either as it
is. -/
def relabelledEdge (condition priority : Value) (edge : Fields) : Fields :=
  Fields.put (putUnlessNull edge "label" condition) "data"
    (.obj (relabelledItem condition priority (Fields.get edge "data").fieldsOrNone))

section Relabelled

variable (condition priority : Value) (edge : Fields)

theorem get_relabelledEdge {key : String} (hdata : key ≠ "data") (hlabel : key ≠ "label") :
    Fields.get (relabelledEdge condition priority edge) key = Fields.get edge key := by
  rw [relabelledEdge, Fields.get_put_of_ne _ _ (by simpa using hdata.symm), get_putUnlessNull,
    if_neg (by simp [hlabel.symm])]

theorem get_label_relabelledEdge :
    Fields.get (relabelledEdge condition priority edge) "label"
      = if condition = .null then Fields.get edge "label" else condition := by
  rw [relabelledEdge, Fields.get_put_of_ne _ _ (by simp), get_putUnlessNull]
  by_cases hnull : condition = .null <;> simp [hnull]

theorem get_data_relabelledEdge :
    Fields.get (relabelledEdge condition priority edge) "data"
      = .obj (relabelledItem condition priority (Fields.get edge "data").fieldsOrNone) :=
  Fields.get_put_self _ _ _

theorem sourceOf_relabelledEdge :
    sourceOf (relabelledEdge condition priority edge) = sourceOf edge := by
  rw [sourceOf, get_relabelledEdge _ _ _ (by decide) (by decide), sourceOf]

/-- **An edge that is relabelled says the new condition and priority**, and
the target it said. -/
theorem ofEdge_relabelledEdge :
    Transition.ofEdge (relabelledEdge condition priority edge)
      = (Transition.ofEdge edge).relabelled condition priority := by
  have htarget : Fields.get (relabelledEdge condition priority edge) "target"
      = Fields.get edge "target" := get_relabelledEdge _ _ _ (by decide) (by decide)
  simp only [Transition.ofEdge, htarget, get_label_relabelledEdge, get_data_relabelledEdge,
    Value.fieldsOrNone, relabelledItem, Transition.relabelled, get_putUnlessNull,
    Key.text_same_text]
  by_cases hc : condition = .null <;> by_cases hp : priority = .null <;> simp [hc, hp, Value.orElse]

variable {condition priority edge}

theorem labelled_relabelledEdge (hl : Labelled edge) :
    Labelled (relabelledEdge condition priority edge) := by
  obtain ⟨data, hdata, hlabel⟩ := hl
  refine ⟨_, get_data_relabelledEdge _ _ _, ?_⟩
  rw [get_label_relabelledEdge, relabelledItem, get_putUnlessNull, get_putUnlessNull, hdata, hlabel]
  by_cases hnull : condition = .null <;> simp [hnull, Value.fieldsOrNone]

/-- The priority an edge says is well formed after it was relabelled. -/
theorem wellFormed_priority_relabelledEdge (hpriority : priority.wellFormed = true)
    (hedge : (Transition.ofEdge edge).priority.wellFormed = true) :
    (Transition.ofEdge (relabelledEdge condition priority edge)).priority.wellFormed = true := by
  rw [ofEdge_relabelledEdge, Transition.relabelled]
  dsimp only
  split
  · exact hedge
  · exact Value.wellFormed_orElse hpriority rfl

/-- An edge whose data are an object is relabelled without fault. -/
theorem relabel_of_data {data : Fields} (hdata : Fields.get edge "data" = .obj data) :
    relabel edge condition priority = .ok (relabelledEdge condition priority edge) := by
  have hread : ((Fields.get edge "data").orElse (.obj [])).asFields
      = .ok (Fields.get edge "data").fieldsOrNone := by
    rw [hdata]
    cases data <;> rfl
  rw [relabel, hread]
  rfl

/-- The edges after those of an id were relabelled. -/
def relabelledEdges (id condition priority : Value) (edges : List Fields) : List Fields :=
  edges.map fun edge =>
    if Value.str (idOf edge) = id then relabelledEdge condition priority edge else edge

/-- **Relabelling changes the edges of an id and no other edge**, and says
where the last of them starts, if there is one. -/
theorem relabelEdges_of_data {id : Value} {edges : List Fields}
    (hdata : ∀ edge ∈ edges, ∃ data, Fields.get edge "data" = .obj data) :
    relabelEdges id condition priority (edges.map Value.obj)
      = .ok ((relabelledEdges id condition priority edges).map Value.obj,
        lastSource id edges) := by
  induction edges with
  | nil => rfl
  | cons edge rest ih =>
    obtain ⟨data, hread⟩ := hdata edge List.mem_cons_self
    have hcons : relabelledEdges id condition priority (edge :: rest)
        = (if Value.str (idOf edge) = id then relabelledEdge condition priority edge else edge)
          :: relabelledEdges id condition priority rest := List.map_cons
    rw [List.map_cons, relabelEdges, Value.object, Outcome.ok_bind,
      ih fun e he => hdata e (List.mem_cons_of_mem _ he), relabel_of_data hread, hcons]
    rw [lastSource_cons]
    by_cases hid : Value.str (idOf edge) = id
    · rw [if_pos hid, if_pos hid, if_pos hid]
      rfl
    · rw [if_neg hid, if_neg hid, if_neg hid]
      rfl

/-- Edges whose data are objects are relabelled as they should be. -/
theorem eq_relabelledEdges {id : Value} {edges edges' : List Fields}
    (hdata : ∀ edge ∈ edges, ∃ data, Fields.get edge "data" = .obj data)
    (h : List.Forall₂ (RelabelledTo id condition priority) edges edges') :
    edges' = relabelledEdges id condition priority edges := by
  have hall : List.Forall₂ Eq (relabelledEdges id condition priority edges) edges' := by
    rw [relabelledEdges, List.forall₂_map_left_iff]
    refine forall₂_imp_of_mem h fun edge hedge edge' hto => ?_
    obtain ⟨data, hread⟩ := hdata edge hedge
    unfold RelabelledTo at hto
    split
    next hid =>
      rw [if_pos hid, relabel_of_data hread] at hto
      exact Except.ok.inj hto
    next hid =>
      rw [if_neg hid] at hto
      exact hto.symm
  exact (List.forall₂_eq_eq_eq ▸ hall : _ = _).symm

theorem outgoing_relabelledEdges {id : Value} {edges : List Fields} {owner : String}
    (hothers : ∀ edge ∈ edges, Value.str (idOf edge) = id → sourceOf edge ≠ owner) :
    outgoing (relabelledEdges id condition priority edges) owner = outgoing edges owner := by
  refine outgoing_congr (List.forall₂_map_right_iff.mpr (List.forall₂_same.mpr fun e he => ?_))
  split
  next hid => exact ⟨sourceOf_relabelledEdge _ _ _, fun hfrom => absurd hfrom (hothers e he hid)⟩
  next => exact ⟨rfl, fun _ => rfl⟩

end Relabelled

/-- **Relabelling an edge keeps a graph consistent**: no other edge has its
id, so only the node it starts from sees a difference. -/
theorem isConsistent_updateEdge (hc : Consistent nodes edges) {id condition priority : Value}
    (hpriority : priority.wellFormed = true)
    (h : updateEdge (Graph.ofObjects nodes edges).toValue id condition priority = .ok revision) :
    IsConsistent (revision.apply (Graph.ofObjects nodes edges).toValue) := by
  have hdata : ∀ edge ∈ edges, ∃ data, Fields.get edge "data" = .obj data := by
    intro edge hedge
    obtain ⟨data, hread, _⟩ := hc.labelled edge hedge
    exact ⟨data, hread⟩
  obtain ⟨edges', hall, hresyncs⟩ := updateEdge_resyncs (holds_toValue nodes edges) h
  obtain rfl := eq_relabelledEdges hdata hall
  have hids : (relabelledEdges id condition priority edges).map idOf = edges.map idOf :=
    map_eq_map_of_forall₂ (hall.imp fun _ _ hto => hto.idOf_eq)
  refine hresyncs.isConsistent (hids ▸ hc.ids) ?_ ?_ hc.named ?_
  · intro edge' hmem'
    obtain ⟨edge, hedge, rfl⟩ := List.mem_map.mp hmem'
    split
    · exact labelled_relabelledEdge (hc.labelled edge hedge)
    · exact hc.labelled edge hedge
  · intro edge' hmem'
    obtain ⟨edge, hedge, rfl⟩ := List.mem_map.mp hmem'
    split
    · exact wellFormed_priority_relabelledEdge hpriority (hc.priorities edge hedge)
    · exact hc.priorities edge hedge
  · intro node hnode hout
    refine (hc.copies node hnode).congr rfl rfl
      (outgoing_relabelledEdges fun edge hedge hsame hfrom => hout ?_)
    -- the only edge of that id is the last one, so it starts from the node in the scope
    obtain ⟨last, hmem, hid, hlast⟩ := exists_lastSource hedge hsame
    have hkey : idOf edge = idOf last := Value.str.inj (hsame.trans hid.symm)
    rw [hlast, ← hfrom, List.inj_on_of_nodup_map hc.ids hedge hmem hkey]
    exact List.mem_cons_self

end Canvas

end CallFlow

import CallFlow.Graph.Edit
import CallFlow.Node.Template
import CallFlow.Proofs.Graph.Agreement

/-!
# What an edit comes to

Every edit of a graph of objects does one of two things. It may change
nothing, and then what is handed back holds the nodes and edges there were.
Otherwise it makes other nodes and edges and brings the nodes of a scope into
agreement with the edges (`Revision.Resyncs`). The statements here say for each
edit which nodes and edges those are and which scope it is, once and for all:
what an edit keeps, and what it makes true, is read off them.

A scope without ids touches no node (`syncedTo_nil`). So an edit that finds
nothing to do is one that brings nothing into agreement, and removing edges or
relabelling them needs no case of its own for it.
-/

namespace CallFlow

/-- **What a graph document holds**: objects under either key, or nothing. -/
structure Holds (document : Value) (nodes edges : List Fields) : Prop where
  /-- Its nodes are objects. -/
  nodesOf_eq : nodesOf document = .ok (nodes.map Value.obj)
  /-- Its edges are objects. -/
  edgesOf_eq : edgesOf document = .ok (edges.map Value.obj)

theorem holds_toValue (nodes edges : List Fields) :
    Holds (Graph.ofObjects nodes edges).toValue nodes edges :=
  ⟨nodesOf_toValue _, edgesOf_toValue _⟩

theorem Holds.unique {document : Value} {nodes edges nodes' edges' : List Fields}
    (h : Holds document nodes edges) (h' : Holds document nodes' edges') :
    nodes' = nodes ∧ edges' = edges := by
  have hobj : Function.Injective Value.obj := fun _ _ => Value.obj.inj
  exact ⟨List.map_injective_iff.mpr hobj (Except.ok.inj (h'.nodesOf_eq.symm.trans h.nodesOf_eq)),
    List.map_injective_iff.mpr hobj (Except.ok.inj (h'.edgesOf_eq.symm.trans h.edgesOf_eq))⟩

theorem Holds.exists_unchanged {document : Value} {nodes edges : List Fields}
    (h : Holds document nodes edges) : ∃ revision, Revision.unchanged document = .ok revision := by
  obtain ⟨fields, hfields, _⟩ := Outcome.bind_eq_ok.mp h.nodesOf_eq
  rw [Revision.unchanged, hfields, Outcome.ok_bind, Graph.ofDocument, h.nodesOf_eq, h.edgesOf_eq]
  split <;> exact ⟨_, rfl⟩

theorem Holds.wellFormed_priorities {document : Value} {nodes edges : List Fields}
    (h : Holds document nodes edges) (hdocument : document.wellFormed = true) :
    ∀ edge ∈ edges, (Transition.ofEdge edge).priority.wellFormed = true :=
  fun _ hedge => Transition.wellFormed_priority_ofEdge
    (wellFormed_of_edgesOf hdocument h.edgesOf_eq _ (List.mem_map_of_mem hedge))

/-- A document that is kept has no keys besides the lists. -/
theorem unchanged_of_kept {document : Value} {revision : Revision}
    (h : Revision.unchanged document = .ok revision) :
    Revision.unchanged (revision.apply document) = .ok .kept := by
  have hwhole := h
  obtain ⟨fields, _, h⟩ := Outcome.bind_eq_ok.mp h
  split at h
  · obtain rfl := Except.ok.inj h
    exact hwhole
  · obtain ⟨g, _, h⟩ := Outcome.bind_eq_ok.mp h
    obtain rfl := Except.ok.inj h
    rfl

namespace Revision

/-- **What a revision of a graph document comes to**: the nodes and edges the
document holds, if the revision changes nothing, or else those of the graph
that was built. -/
inductive ComesTo (document : Value) (nodes edges : List Fields) : Revision → Prop
  /-- Nothing is changed. -/
  | unchanged {revision : Revision} (holds : Holds document nodes edges)
    (unchanged : Revision.unchanged document = .ok revision) :
    ComesTo document nodes edges revision
  /-- A graph is built. -/
  | rebuilt : ComesTo document nodes edges (.rebuilt (Graph.ofObjects nodes edges))

namespace ComesTo

variable {document : Value} {nodes edges : List Fields} {revision : Revision}

theorem holds (h : ComesTo document nodes edges revision) :
    Holds (revision.apply document) nodes edges := by
  cases h with
  | unchanged hg hunchanged =>
    obtain ⟨hedges, hnodes⟩ := lists_of_unchanged hunchanged hg.edgesOf_eq hg.nodesOf_eq
    exact ⟨hnodes, hedges⟩
  | rebuilt => exact holds_toValue nodes edges

/-- A graph of objects is left as the graph a revision comes to. -/
theorem apply_eq {nodes' edges' : List Fields}
    (h : ComesTo (Graph.ofObjects nodes edges).toValue nodes' edges' revision) :
    revision.apply (Graph.ofObjects nodes edges).toValue
      = (Graph.ofObjects nodes' edges').toValue := by
  cases h with
  | unchanged hg hunchanged =>
    obtain ⟨rfl, rfl⟩ := (holds_toValue nodes edges).unique hg
    obtain rfl := Except.ok.inj hunchanged
    rfl
  | rebuilt => rfl

end ComesTo

/-- **What an edit comes to that brings a scope into agreement**: the edges as
it made them, and the nodes as it made them but for the lists in scope. -/
def Resyncs (document : Value) (nodes edges : List Fields) (scope : List String)
    (revision : Revision) : Prop :=
  ∃ nodes', ComesTo document nodes' edges revision
    ∧ List.Forall₂ (SyncedTo edges (some scope)) nodes nodes'

end Revision

/-! ## Scopes -/

theorem idSet_map_str (ids : List String) : (Value.list (ids.map Value.str)).idSet = .ok ids := by
  have hatoms : (ids.map Value.str).all Value.isAtom = true := by
    rw [List.all_map]
    exact List.all_eq_true.mpr fun _ _ => rfl
  rw [Value.idSet, Value.elements, Outcome.ok_bind, if_pos hatoms, List.filterMap_map]
  exact congrArg Except.ok (List.filterMap_some)

section Scopes

variable {document : Value} {nodes edges : List Fields} {revision : Revision}

/-- **Bringing a graph of objects into agreement** keeps its edges and takes its
nodes one by one. -/
theorem exists_of_graph_sync {scope : Option (List String)} {g : Graph}
    (h : (Graph.ofObjects nodes edges).sync scope = .ok g) :
    ∃ nodes', g = Graph.ofObjects nodes' edges
      ∧ List.Forall₂ (SyncedTo edges scope) nodes nodes' := by
  obtain ⟨⟨values, updated⟩, hsync, h⟩ := Outcome.bind_eq_ok.mp h
  obtain rfl := Except.ok.inj h
  obtain ⟨nodes', rfl, hall, _⟩ := syncedTo_syncNodes hsync
  exact ⟨nodes', rfl, hall⟩

theorem SyncedTo.eq_of_not_mem {scope : List String} {node node' : Fields}
    (h : SyncedTo edges (some scope) node node') (hout : idOf node ∉ scope) : node' = node := by
  obtain ⟨updated, h⟩ := h
  rw [syncInScope, inScope, if_neg (by simpa using hout)] at h
  exact (Prod.mk.inj (Except.ok.inj h)).1.symm

theorem syncedTo_nil (edges : List Fields) (node : Fields) :
    SyncedTo edges (some []) node node := ⟨none, rfl⟩

theorem Revision.ComesTo.resyncs (h : ComesTo document nodes edges revision) :
    Resyncs document nodes edges [] revision :=
  ⟨nodes, h, List.forall₂_same.mpr fun node _ => syncedTo_nil edges node⟩

theorem Revision.resyncs_of_sync {scope : List String} {g : Graph}
    (h : (Graph.ofObjects nodes edges).sync (some scope) = .ok g) :
    Resyncs document nodes edges scope (.rebuilt g) := by
  obtain ⟨nodes', rfl, hall⟩ := exists_of_graph_sync h
  exact ⟨nodes', .rebuilt, hall⟩

end Scopes

/-! ## Edits on the canvas -/

section Canvas

variable {document : Value} {nodes edges : List Fields} {revision : Revision}

theorem elementIds_map_obj (fs : List Fields) :
    elementIds (fs.map Value.obj) = .ok (fs.map idOf) := by
  rw [elementIds, List.mapM_map]
  exact Outcome.mapM_ok idOf fs

/-- The edge that is drawn between two ends, whatever they are. -/
def edgeBetween (id : String) (source target condition priority : Value) : Fields :=
  [("id", .str id), ("source", source), ("target", target), ("label", condition),
    ("data", .obj [("condition", condition), ("priority", priority)])]

section EdgeBetween

variable (id : String) (source target condition priority : Value)

@[simp] theorem idOf_edgeBetween :
    idOf (edgeBetween id source target condition priority) = id := by
  simp [idOf, edgeBetween, Fields.get, Fields.get?]

@[simp] theorem sourceOf_edgeBetween :
    sourceOf (edgeBetween id source target condition priority) = source.idText := by
  simp [sourceOf, edgeBetween, Fields.get, Fields.get?]

@[simp] theorem targetOf_edgeBetween :
    targetOf (edgeBetween id source target condition priority) = target.idText := by
  simp [targetOf, edgeBetween, Fields.get, Fields.get?]

end EdgeBetween

/-- **What drawing an edge comes to**: nothing where an end is blank. Otherwise
there is one edge more, behind the others and with an id of its own, and the
node it starts from is brought into agreement. -/
theorem connectNodes_resyncs (hg : Holds document nodes edges)
    {source target condition priority : Value}
    (h : connectNodes document source target condition priority = .ok revision) :
    ((source.truthy && target.truthy) = false ∧ revision.ComesTo document nodes edges)
    ∨ ((source.truthy && target.truthy) = true
      ∧ ∃ scope id, (Value.list [source]).idSet = .ok scope ∧ id ∉ edges.map idOf
        ∧ revision.Resyncs document nodes
          (edges ++ [edgeBetween id source target condition priority]) scope) := by
  rw [connectNodes] at h
  split at h
  next hblank =>
    exact .inl ⟨Bool.and_eq_false_iff.mpr (by simpa using hblank), .unchanged hg h⟩
  next hboth =>
    rw [hg.edgesOf_eq, hg.nodesOf_eq] at h
    simp only [Outcome.ok_bind, elementIds_map_obj] at h
    obtain ⟨scope, hscope, h⟩ := Outcome.bind_eq_ok.mp h
    obtain ⟨g, hsync, h⟩ := Outcome.bind_eq_ok.mp h
    obtain rfl := Except.ok.inj h
    rw [← List.map_singleton (f := Value.obj), ← List.map_append] at hsync
    exact .inr ⟨by simpa using hboth, scope, _, hscope, EdgeId.allocate_not_mem _ _ _ _,
      Revision.resyncs_of_sync hsync⟩

/-- **What removing edges comes to**: the edges whose ids are not doomed, and
the nodes from which one that is starts brought into agreement. -/
theorem removeEdges_resyncs (hg : Holds document nodes edges) {ids : Value}
    (h : removeEdges document ids = .ok revision) :
    ∃ doomed, ids.idSet = .ok doomed
      ∧ revision.Resyncs document nodes (edges.filter fun e => !doomed.contains (idOf e))
        ((edges.filter fun e => doomed.contains (idOf e)).map sourceOf) := by
  obtain ⟨doomed, hdoomed, h⟩ := Outcome.bind_eq_ok.mp h
  rw [hg.edgesOf_eq, hg.nodesOf_eq] at h
  simp only [Outcome.ok_bind, objects_map_obj] at h
  refine ⟨doomed, hdoomed, ?_⟩
  split at h
  next hall =>
    -- as many are kept as there were, so none is doomed
    have hkept : edges.filter (fun e => !doomed.contains (idOf e)) = edges :=
      List.filter_sublist.eq_of_length hall
    have hnone : edges.filter (fun e => doomed.contains (idOf e)) = [] := by
      refine List.filter_eq_nil_iff.mpr fun e he => ?_
      simpa using List.filter_eq_self.mp hkept e he
    rw [hkept, hnone]
    exact Revision.ComesTo.resyncs (.unchanged hg h)
  next =>
    obtain ⟨g, hsync, h⟩ := Outcome.bind_eq_ok.mp h
    obtain rfl := Except.ok.inj h
    exact Revision.resyncs_of_sync hsync

/-- What is read after a value was written unless it is null. -/
theorem get_putUnlessNull (fields : Fields) (key : String) (value : Value) (other : Key) :
    Fields.get (putUnlessNull fields key value) other
      = if value ≠ .null ∧ Key.same key other then value else Fields.get fields other := by
  rw [putUnlessNull]
  by_cases hv : value = .null
  · rw [if_pos hv, if_neg fun h => h.1 hv]
  · rw [if_neg hv, Fields.get, Fields.get?_put]
    by_cases hk : Key.same key other = true
    · rw [if_pos hk, if_pos ⟨hv, hk⟩, Option.getD_some]
    · rw [if_neg hk, if_neg fun h => hk h.2, Fields.get]

theorem get_of_relabel {edge edge' : Fields} {condition priority : Value}
    (h : relabel edge condition priority = .ok edge') {key : String} (hdata : key ≠ "data")
    (hlabel : key ≠ "label") : Fields.get edge' key = Fields.get edge key := by
  obtain ⟨data, _, h⟩ := Outcome.bind_eq_ok.mp h
  obtain rfl := Except.ok.inj h
  rw [Fields.get_put_of_ne _ _ (by simpa using hdata.symm), get_putUnlessNull,
    if_neg (by simp [hlabel.symm])]

/-- Whether an edge becomes another where those of an id are relabelled. -/
def RelabelledTo (id condition priority : Value) (edge edge' : Fields) : Prop :=
  if Value.str (idOf edge) = id then relabel edge condition priority = .ok edge' else edge' = edge

theorem RelabelledTo.get_eq {id condition priority : Value} {edge edge' : Fields}
    (h : RelabelledTo id condition priority edge edge') {key : String} (hdata : key ≠ "data")
    (hlabel : key ≠ "label") : Fields.get edge' key = Fields.get edge key := by
  unfold RelabelledTo at h
  split at h
  · exact get_of_relabel h hdata hlabel
  · rw [h]

theorem RelabelledTo.idOf_eq {id condition priority : Value} {edge edge' : Fields}
    (h : RelabelledTo id condition priority edge edge') : idOf edge' = idOf edge := by
  rw [idOf, h.get_eq (by decide) (by decide), idOf]

theorem RelabelledTo.sourceOf_eq {id condition priority : Value} {edge edge' : Fields}
    (h : RelabelledTo id condition priority edge edge') : sourceOf edge' = sourceOf edge := by
  rw [sourceOf, h.get_eq (by decide) (by decide), sourceOf]

/-- Where the last edge of an id starts. -/
def lastSource (id : Value) (edges : List Fields) : Option String :=
  (edges.filter fun e => Value.str (idOf e) = id).getLast?.map sourceOf

/-- An edge before others is the last of an id if it has it and they have not. -/
theorem lastSource_cons (id : Value) (edge : Fields) (rest : List Fields) :
    lastSource id (edge :: rest)
      = if Value.str (idOf edge) = id then some ((lastSource id rest).getD (sourceOf edge))
        else lastSource id rest := by
  rw [lastSource, lastSource]
  by_cases hid : Value.str (idOf edge) = id
  · rw [if_pos hid, List.filter_cons_of_pos (by simpa using hid), List.getLast?_cons]
    cases (rest.filter fun e => Value.str (idOf e) = id).getLast? <;> rfl
  · rw [if_neg hid, List.filter_cons_of_neg (by simpa using hid)]

/-- Where there is an edge of an id there is a last one. -/
theorem exists_lastSource {id : Value} {edge : Fields} (hedge : edge ∈ edges)
    (hid : Value.str (idOf edge) = id) :
    ∃ last ∈ edges, Value.str (idOf last) = id ∧ lastSource id edges = some (sourceOf last) := by
  have hfound : edge ∈ edges.filter fun e => Value.str (idOf e) = id :=
    List.mem_filter.mpr ⟨hedge, decide_eq_true hid⟩
  obtain ⟨last, hlast⟩ := Option.isSome_iff_exists.mp
    (List.getLast?_isSome.mpr (List.ne_nil_of_mem hfound))
  obtain ⟨hmem, hsame⟩ := List.mem_filter.mp (List.mem_of_getLast? hlast)
  exact ⟨last, hmem, of_decide_eq_true hsame, by rw [lastSource, hlast, Option.map_some]⟩

/-- **Edges are relabelled one by one**, and what is said beside them is where
the last edge of the id starts. -/
theorem relabelEdges_eq_ok {id condition priority : Value} {values : List Value}
    {last : Option String}
    (h : relabelEdges id condition priority (edges.map Value.obj) = .ok (values, last)) :
    ∃ edges' : List Fields, values = edges'.map Value.obj
      ∧ List.Forall₂ (RelabelledTo id condition priority) edges edges'
      ∧ last = lastSource id edges := by
  induction edges generalizing values last with
  | nil =>
    obtain ⟨rfl, rfl⟩ := Prod.mk.inj (Except.ok.inj h)
    exact ⟨[], rfl, .nil, rfl⟩
  | cons edge rest ih =>
    rw [List.map_cons, relabelEdges, Value.object, Outcome.ok_bind] at h
    rw [lastSource_cons]
    by_cases hid : Value.str (idOf edge) = id
    · rw [if_pos hid] at h ⊢
      obtain ⟨edge', hrelabel, h⟩ := Outcome.bind_eq_ok.mp h
      obtain ⟨⟨others, last'⟩, hrest, h⟩ := Outcome.bind_eq_ok.mp h
      obtain ⟨rfl, rfl⟩ := Prod.mk.inj (Except.ok.inj h)
      obtain ⟨edges', rfl, hall, rfl⟩ := ih hrest
      exact ⟨edge' :: edges', rfl, .cons (by rw [RelabelledTo, if_pos hid]; exact hrelabel) hall,
        rfl⟩
    · rw [if_neg hid] at h ⊢
      obtain ⟨⟨others, last'⟩, hrest, h⟩ := Outcome.bind_eq_ok.mp h
      obtain ⟨rfl, rfl⟩ := Prod.mk.inj (Except.ok.inj h)
      obtain ⟨edges', rfl, hall, rfl⟩ := ih hrest
      exact ⟨edge :: edges', rfl, .cons (by rw [RelabelledTo, if_neg hid]) hall, rfl⟩

/-- **What relabelling the edges of an id comes to**: those edges with another
condition and priority, and the node from which the last of them starts brought
into agreement. -/
theorem updateEdge_resyncs (hg : Holds document nodes edges) {id condition priority : Value}
    (h : updateEdge document id condition priority = .ok revision) :
    ∃ edges', List.Forall₂ (RelabelledTo id condition priority) edges edges'
      ∧ revision.Resyncs document nodes edges' (lastSource id edges).toList := by
  rw [updateEdge, hg.edgesOf_eq, hg.nodesOf_eq, Outcome.ok_bind] at h
  obtain ⟨⟨values, last⟩, hrelabel, h⟩ := Outcome.bind_eq_ok.mp h
  obtain ⟨edges', rfl, hall, rfl⟩ := relabelEdges_eq_ok hrelabel
  refine ⟨edges', hall, ?_⟩
  cases hlast : lastSource id edges with
  | none =>
    simp only [hlast] at h
    -- no edge has the id, so every edge stays what it is
    have hsame : List.Forall₂ Eq edges edges' := by
      refine forall₂_imp_of_mem hall fun e he e' hto => ?_
      by_cases hid : Value.str (idOf e) = id
      · obtain ⟨_, _, _, hsome⟩ := exists_lastSource he hid
        cases hlast.symm.trans hsome
      · rw [RelabelledTo, if_neg hid] at hto
        exact hto.symm
    obtain rfl := List.forall₂_eq_eq_eq ▸ hsame
    exact Revision.ComesTo.resyncs (.unchanged hg h)
  | some source =>
    simp only [hlast, Outcome.ok_bind] at h
    obtain ⟨g, hsync, h⟩ := Outcome.bind_eq_ok.mp h
    obtain rfl := Except.ok.inj h
    exact Revision.resyncs_of_sync hsync

end Canvas

/-! ## Edits in the panel -/

section Panel

variable {document : Value} {nodes edges : List Fields} {revision : Revision}

/-- Whether a node is there is asked of objects without fault. -/
theorem hasNode_map_obj (id : Value) (nodes : List Fields) :
    hasNode id (nodes.map Value.obj) = .ok (nodes.any fun n => Value.str (idOf n) = id) := by
  induction nodes with
  | nil => rfl
  | cons node rest ih =>
    rw [List.map_cons, hasNode, elementId, Value.object, Outcome.ok_bind, Outcome.pure_eq,
      Outcome.ok_bind, ih, List.any_cons]
    by_cases hid : Value.str (idOf node) = id
    · rw [if_pos hid, decide_eq_true hid, Bool.true_or, Outcome.pure_eq]
    · rw [if_neg hid, decide_eq_false hid, Bool.false_or]

theorem hasNode_of_mem {name : String} (h : name ∈ nodes.map idOf) :
    hasNode (.str name) (nodes.map Value.obj) = .ok true := by
  obtain ⟨node, hnode, rfl⟩ := List.mem_map.mp h
  rw [hasNode_map_obj, List.any_eq_true.mpr ⟨node, hnode, decide_eq_true rfl⟩]

/-- Where data can be written to, they are the data that are read. -/
theorem eq_dataOf_of_editableData {node data : Fields} (h : editableData node = .ok data) :
    data = dataOf node := by
  rw [editableData] at h
  cases hv : (Fields.get node "data").truthy with
  | true =>
    rw [Value.orElse_of_truthy hv] at h
    cases hd : Fields.get node "data" with
    | obj fields =>
      rw [hd] at h
      rw [dataOf, hd]
      exact (Except.ok.inj h).symm
    | _ =>
      rw [hd] at h
      cases h
  | false =>
    rw [Value.orElse, hv] at h
    obtain rfl := Except.ok.inj h
    cases hd : Fields.get node "data" with
    | obj fields =>
      rw [hd] at hv
      cases fields with
      | nil => rw [dataOf, hd]; rfl
      | cons f rest => cases hv
    | _ => rw [dataOf, hd]; rfl

theorem editableData_of_data {node data : Fields} (h : Fields.get node "data" = .obj data) :
    editableData node = .ok (dataOf node) := by
  rw [editableData, dataOf, h]
  cases data <;> rfl

/-- A node with a list of items, if it is the node of an id. -/
def listedAs (name : String) (items : List Value) (node : Fields) : Fields :=
  if idOf node = name then withTransitions node items else node

theorem relisted_listedAs (name : String) (items : List Value) (node : Fields) :
    Relisted node (listedAs name items node) := by
  unfold listedAs
  split
  · exact .inr ⟨items, rfl⟩
  · exact .inl rfl

/-- **Copying items into the nodes of an id changes no other node.** -/
theorem putCopies_eq_ok {name : String} {items values : List Value}
    (h : putCopies (.str name) items (nodes.map Value.obj) = .ok values) :
    values = (nodes.map (listedAs name items)).map Value.obj := by
  induction nodes generalizing values with
  | nil => exact (Except.ok.inj h).symm
  | cons node rest ih =>
    rw [List.map_cons, putCopies, Value.object, Outcome.ok_bind] at h
    simp only [Value.str.injEq] at h
    by_cases hid : idOf node = name
    · simp only [if_pos hid, Outcome.pure_eq, Outcome.ok_bind] at h
      obtain ⟨data, hdata, h⟩ := Outcome.bind_eq_ok.mp h
      obtain ⟨values', hrest, h⟩ := Outcome.bind_eq_ok.mp h
      obtain rfl := Except.ok.inj h
      rw [ih hrest, List.map_cons, List.map_cons, listedAs, if_pos hid, withTransitions,
        eq_dataOf_of_editableData hdata]
    · simp only [if_neg hid, Outcome.pure_eq, Outcome.ok_bind] at h
      obtain ⟨values', hrest, h⟩ := Outcome.bind_eq_ok.mp h
      obtain rfl := Except.ok.inj h
      rw [ih hrest, List.map_cons, List.map_cons, listedAs, if_neg hid]

/-- Nodes whose data are objects are given a list without fault, those of the
id and no others. -/
theorem putCopies_of_data (name : String) (items : List Value)
    (hdata : ∀ node ∈ nodes, ∃ data, Fields.get node "data" = .obj data) :
    putCopies (.str name) items (nodes.map Value.obj)
      = .ok ((nodes.map (listedAs name items)).map Value.obj) := by
  induction nodes with
  | nil => rfl
  | cons node rest ih =>
    obtain ⟨data, hread⟩ := hdata node List.mem_cons_self
    rw [List.map_cons, putCopies, Value.object, Outcome.ok_bind,
      ih fun n hn => hdata n (List.mem_cons_of_mem _ hn), List.map_cons, listedAs]
    by_cases hid : idOf node = name
    · rw [if_pos (congrArg Value.str hid), if_pos hid, editableData_of_data hread]
      rfl
    · rw [if_neg fun h => hid (Value.str.inj h), if_neg hid]
      rfl

/-- The edges of a graph after the list of a node was replaced: those of the
other nodes, and behind them the ones made anew. -/
def relistedEdges (name : String) (items : List Value) (edges : List Fields) : List Fields :=
  edges.filter (fun e => sourceOf e ≠ name)
    ++ (edgesFrom (.str name) 0 items
      (some ((edges.filter fun e => sourceOf e ≠ name).map idOf))).1

/-- **What replacing the list of a node comes to**: nothing where the node is
not there. Otherwise its edges are left out and made anew behind the others,
and it is brought into agreement with them. -/
theorem replaceTransitions_resyncs (hg : Holds document nodes edges) {id transitions : Value}
    (h : replaceTransitions document id transitions = .ok revision) :
    ((∀ node ∈ nodes, Value.str (idOf node) ≠ id) ∧ revision.ComesTo document nodes edges)
    ∨ ∃ name elements, id = .str name ∧ name ∈ nodes.map idOf
      ∧ transitions.elements = .ok elements
      ∧ revision.Resyncs document
        (nodes.map (listedAs name ((objectsAmong elements).map Value.obj)))
        (relistedEdges name ((objectsAmong elements).map Value.obj) edges) [name] := by
  rw [replaceTransitions, hg.nodesOf_eq, hg.edgesOf_eq] at h
  simp only [Outcome.ok_bind, hasNode_map_obj, objects_map_obj] at h
  split at h
  next hmissing =>
    refine .inl ⟨fun node hnode => ?_, .unchanged hg h⟩
    simp only [Bool.not_eq_true', List.any_eq_false, decide_eq_true_eq] at hmissing
    exact hmissing node hnode
  next hthere =>
    -- a node of that id is there, so the id is a text
    simp only [Bool.not_eq_true, Bool.not_eq_false', List.any_eq_true, decide_eq_true_eq]
      at hthere
    obtain ⟨node, hnode, rfl⟩ := hthere
    obtain ⟨elements, helements, h⟩ := Outcome.bind_eq_ok.mp h
    obtain ⟨values, hput, h⟩ := Outcome.bind_eq_ok.mp h
    obtain rfl := putCopies_eq_ok hput
    obtain ⟨g, hsync, h⟩ := Outcome.bind_eq_ok.mp h
    obtain rfl := Except.ok.inj h
    simp only [ne_eq, Value.str.injEq, Value.text_str] at hsync
    exact .inr ⟨idOf node, elements, rfl, List.mem_map_of_mem hnode, helements,
      Revision.resyncs_of_sync hsync⟩

/-- Whether a node becomes another where changes are laid over the data of those
of an id. -/
def ChangedTo (id : Value) (changes node node' : Fields) : Prop :=
  if Value.str (idOf node) = id then changeNode node changes = .ok node' else node' = node

/-- **Nodes are changed one by one.** -/
theorem changeNodes_eq_ok {id : Value} {changes : Fields} {values : List Value}
    (h : changeNodes id changes (nodes.map Value.obj) = .ok values) :
    ∃ nodes' : List Fields, values = nodes'.map Value.obj
      ∧ List.Forall₂ (ChangedTo id changes) nodes nodes' := by
  induction nodes generalizing values with
  | nil =>
    obtain rfl := Except.ok.inj h
    exact ⟨[], rfl, .nil⟩
  | cons node rest ih =>
    rw [List.map_cons, changeNodes, Value.object, Outcome.ok_bind] at h
    by_cases hid : Value.str (idOf node) = id
    · simp only [if_pos hid, Outcome.pure_eq, Outcome.ok_bind] at h
      obtain ⟨value, hvalue, h⟩ := Outcome.bind_eq_ok.mp h
      obtain ⟨values', hrest, h⟩ := Outcome.bind_eq_ok.mp h
      obtain rfl := Except.ok.inj h
      obtain ⟨node', hchange, rfl⟩ := Outcome.map_eq_ok.mp hvalue
      obtain ⟨nodes', rfl, hall⟩ := ih hrest
      exact ⟨node' :: nodes', rfl, .cons (by rw [ChangedTo, if_pos hid]; exact hchange) hall⟩
    · simp only [if_neg hid, Outcome.pure_eq, Outcome.ok_bind] at h
      obtain ⟨values', hrest, h⟩ := Outcome.bind_eq_ok.mp h
      obtain rfl := Except.ok.inj h
      obtain ⟨nodes', rfl, hall⟩ := ih hrest
      exact ⟨node :: nodes', rfl, .cons (by rw [ChangedTo, if_neg hid]) hall⟩

/-- The fields of a node's data a change states besides the id and the list of
transitions. -/
def plainChanges (stated : Fields) : Fields :=
  Fields.erase (Fields.erase stated "id") "transitions"

/-- **What is read off a node that was changed**: its data with the changes laid
over them, the box that draws it if the changes state a kind, and otherwise what
was read before. -/
theorem get?_of_changeNode {node node' changes : Fields} (h : changeNode node changes = .ok node')
    (key : Key) :
    Fields.get? node' key
      = if key = "data" then some (.obj (Fields.overlay (dataOf node) changes))
        else if key = "type" ∧ Fields.has changes "type" = true then
          some (.str (boxOf (Fields.get (Fields.overlay (dataOf node) changes) "type")))
        else Fields.get? node key := by
  obtain ⟨data, hdata, h⟩ := Outcome.bind_eq_ok.mp h
  rw [eq_dataOf_of_editableData hdata] at h
  dsimp only at h
  by_cases hkind : Fields.has changes "type" = true
  · rw [if_pos hkind] at h
    obtain rfl := Except.ok.inj h
    simp only [Fields.get?_put, Key.text_same_iff, hkind, and_true]
    split
    next htype => rw [if_neg (by simp [htype])]
    next => rfl
  · rw [if_neg hkind] at h
    obtain rfl := Except.ok.inj h
    rw [if_neg fun h : key = "type" ∧ _ => hkind h.2]
    simp only [Fields.get?_put, Key.text_same_iff]

theorem exists_changeNode {node data : Fields} (h : Fields.get node "data" = .obj data)
    (changes : Fields) : ∃ node', changeNode node changes = .ok node' := by
  rw [changeNode, editableData_of_data h, Outcome.ok_bind]
  dsimp only
  split <;> exact ⟨_, rfl⟩

/-- Nodes whose data are objects can be changed. -/
theorem exists_changeNodes (id : Value) (changes : Fields)
    (hdata : ∀ node ∈ nodes, ∃ data, Fields.get node "data" = .obj data) :
    ∃ values, changeNodes id changes (nodes.map Value.obj) = .ok values := by
  induction nodes with
  | nil => exact ⟨[], rfl⟩
  | cons node rest ih =>
    obtain ⟨data, hread⟩ := hdata node List.mem_cons_self
    obtain ⟨node', hnode'⟩ := exists_changeNode hread changes
    obtain ⟨values, hvalues⟩ := ih fun n hn => hdata n (List.mem_cons_of_mem _ hn)
    rw [List.map_cons, changeNodes, Value.object, Outcome.ok_bind, hnode', hvalues]
    split <;> exact ⟨_, rfl⟩

/-- **What a change of a node leaves**: its id, and of its data the keys the
change does not say. -/
theorem changeNode_spec {node node' changes : Fields} (h : changeNode node changes = .ok node') :
    Fields.get node' "id" = Fields.get node "id"
      ∧ dataOf node' = Fields.overlay (dataOf node) changes := by
  constructor
  · rw [Fields.get, get?_of_changeNode h, if_neg (by simp), if_neg (by simp), Fields.get]
  · rw [dataOf, Fields.get, get?_of_changeNode h, if_pos rfl]
    rfl

theorem ChangedTo.idOf_eq {id : Value} {changes node node' : Fields}
    (h : ChangedTo id changes node node') : idOf node' = idOf node := by
  unfold ChangedTo at h
  split at h
  · rw [idOf, (changeNode_spec h).1, idOf]
  · rw [h]

theorem ChangedTo.exists_data {id : Value} {changes node node' : Fields}
    (h : ChangedTo id changes node node') (hdata : ∃ data, Fields.get node "data" = .obj data) :
    ∃ data, Fields.get node' "data" = .obj data := by
  unfold ChangedTo at h
  split at h
  · exact ⟨_, by rw [Fields.get, get?_of_changeNode h, if_pos rfl, Option.getD_some]⟩
  · rwa [h]

/-- What an edit of one graph comes to is what it comes to as a part of an edit
of another. -/
theorem Revision.Resyncs.rebuilt {nodes₁ edges₁ : List Fields} {scope : List String}
    {inner : Revision} (document : Value)
    (h : inner.Resyncs (Graph.ofObjects nodes₁ edges₁).toValue nodes edges scope) :
    Resyncs document nodes edges scope
      (.rebuilt (match inner with
        | .kept => Graph.ofObjects nodes₁ edges₁
        | .rebuilt g => g)) := by
  obtain ⟨nodes', hcomes, hall⟩ := h
  refine ⟨nodes', ?_, hall⟩
  cases hcomes with
  | unchanged hg hunchanged =>
    obtain ⟨rfl, rfl⟩ := (holds_toValue nodes₁ edges₁).unique hg
    obtain rfl := Except.ok.inj hunchanged
    exact .rebuilt
  | rebuilt => exact .rebuilt

/-- **What changing fields of a node comes to**: nothing where the node is not
there. Otherwise the changes are laid over its data, and where they state a
list of transitions, that is replaced afterwards. -/
theorem updateNodeData_resyncs (hg : Holds document nodes edges) {id updates : Value}
    (h : updateNodeData document id updates = .ok revision) :
    ∃ stated, updates.asFields = .ok stated
      ∧ (((∀ node ∈ nodes, Value.str (idOf node) ≠ id) ∧ revision.ComesTo document nodes edges)
        ∨ ∃ name nodes', id = .str name ∧ name ∈ nodes.map idOf
          ∧ List.Forall₂ (ChangedTo (.str name) (plainChanges stated)) nodes nodes'
          ∧ ((Fields.get? stated "transitions" = none ∧ revision.ComesTo document nodes' edges)
            ∨ ∃ transitions elements, Fields.get? stated "transitions" = some transitions
              ∧ transitions.elementsOrNone = .ok elements
              ∧ revision.Resyncs document
                (nodes'.map (listedAs name ((objectsAmong elements).map Value.obj)))
                (relistedEdges name ((objectsAmong elements).map Value.obj) edges) [name])) := by
  obtain ⟨stated, hstated, h⟩ := Outcome.bind_eq_ok.mp h
  refine ⟨stated, hstated, ?_⟩
  rw [hg.nodesOf_eq, hg.edgesOf_eq] at h
  simp only [Outcome.ok_bind, hasNode_map_obj] at h
  obtain ⟨values, hchange, h⟩ := Outcome.bind_eq_ok.mp h
  obtain ⟨nodes', rfl, hall⟩ := changeNodes_eq_ok hchange
  split at h
  next hmissing =>
    refine .inl ⟨fun node hnode => ?_, .unchanged hg h⟩
    simp only [Bool.not_eq_true', List.any_eq_false, decide_eq_true_eq] at hmissing
    exact hmissing node hnode
  next hthere =>
    simp only [Bool.not_eq_true, Bool.not_eq_false', List.any_eq_true, decide_eq_true_eq]
      at hthere
    obtain ⟨node, hnode, rfl⟩ := hthere
    refine .inr ⟨idOf node, nodes', rfl, List.mem_map_of_mem hnode, hall, ?_⟩
    have hread : Fields.get? (Fields.erase stated "id") "transitions"
        = Fields.get? stated "transitions" := by
      rw [Fields.get?_erase, if_neg (by simp)]
    rw [hread] at h
    split at h
    next hnone =>
      obtain rfl := Except.ok.inj h
      exact .inl ⟨hnone, .rebuilt⟩
    next transitions hsome =>
      obtain ⟨elements, helements, h⟩ := Outcome.bind_eq_ok.mp h
      obtain ⟨inner, hinner, h⟩ := Outcome.bind_eq_ok.mp h
      refine .inr ⟨transitions, elements, hsome, helements, ?_⟩
      have hids : nodes'.map idOf = nodes.map idOf :=
        map_eq_map_of_forall₂ (hall.imp fun _ _ hto => hto.idOf_eq)
      -- the node is still there after its other fields were changed
      obtain ⟨hmissing, _⟩ | ⟨name, items, hname, _, hitems, hresyncs⟩ :=
        replaceTransitions_resyncs (holds_toValue nodes' edges) hinner
      · obtain ⟨node', hnode', hid⟩ := List.mem_map.mp (hids ▸ List.mem_map_of_mem hnode)
        exact absurd (congrArg Value.str hid) (hmissing node' hnode')
      · obtain rfl := Value.str.inj hname
        obtain rfl := Except.ok.inj hitems
        have hdone := hresyncs.rebuilt document
        cases inner with
        | kept =>
          obtain rfl := Except.ok.inj h
          exact hdone
        | rebuilt g =>
          obtain rfl := Except.ok.inj h
          exact hdone

end Panel

/-! ## Removing and adding nodes -/

section Nodes

variable {document : Value} {nodes edges : List Fields} {revision : Revision}

/-- **What removing a node comes to**: the other nodes and the edges that
neither start from it nor lead to it, and the nodes from which an edge led to it
brought into agreement. -/
theorem deleteNode_resyncs (hg : Holds document nodes edges) {id : Value}
    (h : deleteNode document id = .ok revision) :
    revision.Resyncs document (nodes.filter fun n => Value.str (idOf n) ≠ id)
      (edges.filter fun e => Value.str (sourceOf e) ≠ id && Value.str (targetOf e) ≠ id)
      (((edges.filter fun e => Value.str (targetOf e) = id).map sourceOf).filter
        fun s => Value.str s ≠ id) := by
  rw [deleteNode, hg.edgesOf_eq, hg.nodesOf_eq] at h
  simp only [Outcome.ok_bind, objects_map_obj] at h
  split at h
  · cases h
  · obtain ⟨g, hsync, h⟩ := Outcome.bind_eq_ok.mp h
    obtain rfl := Except.ok.inj h
    exact Revision.resyncs_of_sync hsync

/-- The id a new node gets: the one that is given, or a fresh one if that is
blank. -/
def newId (kind given : Value) (draw : Draw) : Outcome Value :=
  if given.truthy then .ok given else Value.str <$> draw.freshId kind

/-- The node that is added under an id. -/
def newNode (id kind : Value) (place : Fields) : Fields :=
  [("id", id), ("type", .str (boxOf (Fields.get (templateFor id kind) "type"))),
    ("position", .obj [("x", (Fields.get? place "x").getD (.int 0)),
      ("y", (Fields.get? place "y").getD (.int 0))]),
    ("data", .obj (templateFor id kind))]

@[simp] theorem get_id_newNode (id kind : Value) (place : Fields) :
    Fields.get (newNode id kind place) "id" = id := by
  simp [newNode, Fields.get, Fields.get?]

@[simp] theorem dataOf_newNode (id kind : Value) (place : Fields) :
    dataOf (newNode id kind place) = templateFor id kind := by
  simp [dataOf, newNode, Fields.get, Fields.get?, Value.fieldsOrNone]

/-- **Adding a node** is choosing its id, reading its place, and putting it
behind the others. -/
theorem addNode_eq (hg : Holds document nodes edges) (kind position given : Value) (draw : Draw) :
    addNode document kind position given draw = (do
      let id ← newId kind given draw
      let place ← position.object
      return (.rebuilt (Graph.ofObjects (nodes ++ [newNode id kind place]) edges), id)) := by
  rw [addNode, hg.nodesOf_eq, hg.edgesOf_eq, newId]
  simp only [Graph.ofObjects, List.map_append]
  split <;> rfl

/-- **What adding a node comes to**: one node more, behind the others, with the
id that is answered and the data it starts with. -/
theorem addNode_comesTo (hg : Holds document nodes edges) {kind position given id : Value}
    {draw : Draw} (h : addNode document kind position given draw = .ok (revision, id)) :
    ∃ node, revision.ComesTo document (nodes ++ [node]) edges
      ∧ Fields.get node "id" = id ∧ dataOf node = templateFor id kind
      ∧ (given.truthy = true → id = given) := by
  rw [addNode_eq hg] at h
  obtain ⟨chosen, hchosen, h⟩ := Outcome.bind_eq_ok.mp h
  obtain ⟨place, _, h⟩ := Outcome.bind_eq_ok.mp h
  obtain ⟨rfl, rfl⟩ := Prod.mk.inj (Except.ok.inj h)
  refine ⟨_, .rebuilt, get_id_newNode _ _ _, dataOf_newNode _ _ _, fun hgiven => ?_⟩
  rw [newId, if_pos hgiven] at hchosen
  exact (Except.ok.inj hchosen).symm

end Nodes

end CallFlow

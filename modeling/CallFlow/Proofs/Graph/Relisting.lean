import CallFlow.Proofs.Graph.Synchronisation

/-!
# Edits in the panel reach their node and nothing else

In the panel the list of a node is replaced, by itself or along with other
fields of its data. Its edges are dropped and made anew behind those of the
other nodes, one for each object of the list, and the other fields take the
values that are stated. That is all: neither another node nor an edge from one
is touched, and no two edges come to share an id (`panel_relists`).

After its edges were made anew, the node is brought into agreement with them.
This may write the list a second time, with defaults in their places, and so the
list need not be the one that was handed in; but it is a copy of the edges, and
nothing besides the list can be changed that late (`Rewritten.relisted`).
-/

namespace CallFlow

/-! ## What becomes of the node -/

/-- **Whether a node is left as it was but for its list and for what changes
say.** Of its data, the fields that changes state take their values. It is drawn
by another box only if they state a kind. -/
structure Rewritten (changes node node' : Fields) : Prop where
  /-- The data say what the changes say, and else what they said. -/
  data : ∀ key : Key, key ≠ "transitions" → Fields.get? (dataOf node') key
    = (Fields.get? changes key).or (Fields.get? (dataOf node) key)
  /-- The box is that of the kind which the changes state, or the one it was. -/
  box : Fields.get? node' "type"
    = if Fields.has changes "type" then some (.str (boxOf (Fields.get changes "type")))
      else Fields.get? node "type"
  /-- Beside them nothing is changed. -/
  rest : ∀ key : Key, key ≠ "data" → key ≠ "type" → Fields.get? node' key = Fields.get? node key

theorem Rewritten.refl (node : Fields) : Rewritten [] node node where
  data _ _ := rfl
  box := rfl
  rest _ _ _ := rfl

/-- **A node that is changed says what the changes say.** -/
theorem Rewritten.of_changeNode {changes node node' : Fields}
    (hchanges : Fields.distinct changes = true) (h : changeNode node changes = .ok node') :
    Rewritten changes node node' := by
  have hread := Fields.get?_overlay_of_distinct hchanges (dataOf node)
  refine ⟨fun key _ => ?_, ?_, fun key hdata htype => ?_⟩
  · rw [(changeNode_spec h).2, hread]
  · rw [get?_of_changeNode h, if_neg (by simp)]
    by_cases hkind : Fields.has changes "type" = true
    · obtain ⟨kind, hstated⟩ := Option.isSome_iff_exists.mp hkind
      rw [if_pos ⟨rfl, hkind⟩, if_pos hkind, Fields.get, hread, hstated, Fields.get, hstated]
      rfl
    · rw [if_neg fun h => hkind h.2, if_neg hkind]
  · rw [get?_of_changeNode h, if_neg hdata, if_neg fun h => htype h.1]

/-- **A list makes no difference** to whether a node is left as it was but for
its list. -/
theorem Rewritten.relisted {changes node node₁ node' : Fields} (h : Rewritten changes node node₁)
    (hlist : Relisted node₁ node') : Rewritten changes node node' := by
  rcases hlist with rfl | ⟨items, rfl⟩
  · exact h
  · have hother : ∀ {key : Key}, key ≠ "data" →
        Fields.get? (withTransitions node₁ items) key = Fields.get? node₁ key := fun hne => by
      rw [withTransitions, Fields.get?_put, if_neg (by simpa [Key.text_same_iff] using hne)]
    refine ⟨fun key hne => ?_, ?_, fun key hdata htype => ?_⟩
    · rw [dataOf_withTransitions, Fields.get?_put,
        if_neg (by simpa [Key.text_same_iff] using hne), h.data key hne]
    · rw [hother (by simp), h.box]
    · rw [hother hdata, h.rest key hdata htype]

/-- **What becomes of the node whose list is replaced** by some items: besides what
changes say, its list is a copy of the new edges, and agrees with them unless the
priority of an item is no number. -/
structure Renewed (edges' : List Fields) (items : List Value) (changes node node' : Fields) : Prop
    extends Rewritten changes node node' where
  /-- Its list says what its edges say. -/
  copies : Copies edges' node'
  /-- It compares equal to them unless a priority is no number. -/
  agrees : nodeAgrees (edges'.map Value.obj) node'
    = .ok ((objectsAmong items).all fun item => !(Transition.ofItem item).priority.isUndefined)

/-! ## What becomes of the graph -/

/-- **What becomes of a graph where the list of a node is replaced** by some
items, and other fields of its data are changed. -/
structure Relists (owner : String) (items : List Value) (changes : Fields)
    (nodes edges nodes' edges' : List Fields) : Prop where
  /-- The edges from the node are those of the objects among the items, in their
  order. -/
  own : List.Forall₂ (fun edge item => ∃ id, edge = (Transition.ofItem item).toEdge id (.str owner))
    (edges'.filter fun edge => sourceOf edge = owner) (objectsAmong items)
  /-- The other edges are what they were, and in their order. -/
  others : edges'.filter (fun edge => sourceOf edge ≠ owner)
    = edges.filter fun edge => sourceOf edge ≠ owner
  /-- No two edges share an id. -/
  ids : (edges'.map idOf).Nodup
  /-- The node lists what its edges say, and of the other fields those are changed
  that the changes say; the other nodes are what they were. -/
  nodes : List.Forall₂ (fun node node' =>
    if idOf node = owner then Renewed edges' items changes node node' else node' = node)
    nodes nodes'

section Edges

variable {edges : List Fields} {owner : String}

theorem filter_append_own {others own : List Fields} (hown : ∀ x ∈ own, sourceOf x = owner) :
    (others ++ own).filter (fun x => sourceOf x ≠ owner)
      = others.filter fun x => sourceOf x ≠ owner := by
  have hnone : own.filter (fun x => sourceOf x ≠ owner) = [] :=
    List.filter_eq_nil_iff.mpr fun x hx => by simpa using hown x hx
  rw [List.filter_append, hnone, List.append_nil]

theorem filter_relistedEdges_self (owner : String) (items : List Value) (edges : List Fields) :
    (relistedEdges owner items edges).filter (fun x => sourceOf x = owner)
      = (edgesFrom (.str owner) 0 items
          (some ((edges.filter fun e => sourceOf e ≠ owner).map idOf))).1 := by
  rw [relistedEdges, List.filter_append, List.filter_filter,
    List.filter_eq_nil_iff.mpr fun edge _ => by simp, List.nil_append, List.filter_eq_self]
  exact fun edge hedge => decide_eq_true (sourceOf_of_mem_edgesFrom hedge)

/-- Edges made anew behind those of the other nodes are the edges of their
node. -/
theorem relistedEdges_spec (owner : String) (hids : (edges.map idOf).Nodup)
    (items : List Value) :
    (relistedEdges owner items edges).filter (fun x => sourceOf x ≠ owner)
        = edges.filter (fun x => sourceOf x ≠ owner)
      ∧ ((relistedEdges owner items edges).map idOf).Nodup
      ∧ outgoing (relistedEdges owner items edges) owner
        = (objectsAmong items).map Transition.ofItem := by
  obtain ⟨hnodup, hfree⟩ := nodup_edgesFrom (.str owner) 0 items
    ((edges.filter fun e => sourceOf e ≠ owner).map idOf)
  refine ⟨?_, ?_, ?_⟩
  · rw [relistedEdges, filter_append_own fun _ hedge => sourceOf_of_mem_edgesFrom hedge,
      List.filter_filter]
    simp only [Bool.and_self]
  · rw [relistedEdges, List.map_append]
    exact (hids.sublist (List.filter_sublist.map idOf)).append hnodup
      fun id hold hnew => hfree id hnew hold
  · exact outgoing_append_edgesFrom_self _ _ _ _

end Edges

section Panel

variable {document : Value} {nodes edges : List Fields} {owner : String} {items : List Value}

/-- The nodes of a graph after the list of a node was replaced and brought into
agreement with its edges. -/
def relistedNodes (owner : String) (items : List Value) (nodes edges : List Fields) :
    List Fields :=
  nodes.map fun node =>
    resynced (relistedEdges owner items edges) (some [owner]) (listedAs owner items node)

/-- **A node is renewed by being brought into agreement** with edges made anew,
whichever list it was given before. -/
theorem renewed_resynced {changes node node₁ : Fields} (hid : idOf node₁ = owner)
    (hchanged : Rewritten changes node node₁) (hitems : ∀ item ∈ items, item.wellFormed = true)
    {edges' : List Fields}
    (hown : outgoing edges' owner = (objectsAmong items).map Transition.ofItem)
    (list : List Value) :
    Renewed edges' items changes node
      (resynced edges' (some [owner]) (withTransitions node₁ list)) := by
  have hid' : idOf (withTransitions node₁ list) = owner := by rw [idOf_withTransitions, hid]
  have hcopies :
      Copies edges' (resynced edges' (some [owner]) (withTransitions node₁ list)) := by
    refine copies_resynced ?_ (isCountable_withTransitions _ _) ?_
    · rw [hid', inScope, List.contains_iff_mem]
      exact List.mem_cons_self
    · rw [hid', hown]
      intro t ht
      obtain ⟨item, hitem, rfl⟩ := List.mem_map.mp ht
      exact wellFormed_priority_ofItem hitems hitem
  refine { (hchanged.relisted (.inr ⟨list, rfl⟩)).relisted (relisted_resynced _ _ _) with
    copies := hcopies, agrees := ?_ }
  rw [nodeAgrees_of_copies hcopies, hasUndefinedPriority, idOf_resynced, hid', hown, List.any_map,
    List.not_any_eq_all_not]
  rfl

/-- **A graph in which the list of a node was replaced**, and the other fields of
the node were changed before. -/
theorem relists_relistedNodes {changes : Fields} {nodes₁ : List Fields}
    (hids : (edges.map idOf).Nodup) (hitems : ∀ item ∈ items, item.wellFormed = true)
    (hnodes : List.Forall₂ (fun node node₁ => idOf node₁ = idOf node
      ∧ if idOf node = owner then Rewritten changes node node₁ else node₁ = node) nodes nodes₁) :
    Relists owner items changes nodes edges
      (relistedNodes owner ((objectsAmong items).map Value.obj) nodes₁ edges)
      (relistedEdges owner ((objectsAmong items).map Value.obj) edges) := by
  generalize hfresh : (objectsAmong items).map Value.obj = fresh
  have hobjects : objectsAmong fresh = objectsAmong items := by
    rw [← hfresh, objectsAmong_map_obj]
  obtain ⟨hothers, hnodup, hown⟩ := relistedEdges_spec owner hids fresh
  rw [hobjects] at hown
  refine ⟨?_, hothers, hnodup, List.forall₂_map_right_iff.mpr (hnodes.imp fun node node₁ hto => ?_)⟩
  · rw [filter_relistedEdges_self, ← hobjects]
    exact forall₂_edgesFrom _ _ _ _
  · obtain ⟨hid, hto⟩ := hto
    split at hto
    next hself =>
      rw [if_pos hself, listedAs, if_pos (hid.trans hself)]
      exact renewed_resynced (hid.trans hself) hto hitems hown fresh
    next hother =>
      rw [if_neg hother, hto, listedAs, if_neg hother]
      refine resynced_of_not_isReported ?_
      rw [isReported, inScope, List.contains_eq_mem, Bool.and_eq_false_iff]
      exact .inl (by simpa using hother)

section Edits

variable (hg : Holds document nodes edges) (howner : owner ∈ nodes.map idOf)
  (hdata : ∀ node ∈ nodes, ∃ data, Fields.get node "data" = .obj data)

include hg howner hdata

/-- **Replacing the list of a node that is there** meets no fault where data are
objects. -/
theorem replaceTransitions_eq (items : List Value) :
    replaceTransitions document (.str owner) (.list items)
      = .ok (.rebuilt (Graph.ofObjects
          (relistedNodes owner ((objectsAmong items).map Value.obj) nodes edges)
          (relistedEdges owner ((objectsAmong items).map Value.obj) edges))) := by
  generalize hfresh : (objectsAmong items).map Value.obj = fresh
  have hreadable : (nodes.map (listedAs owner fresh)).all (isReadable (some [owner])) = true := by
    rw [List.all_map]
    refine List.all_eq_true.mpr fun node _ => ?_
    rw [Function.comp_apply, isReadable, Bool.or_eq_true, listedAs]
    split
    next => exact .inr (isCountable_withTransitions node fresh)
    next hother => exact .inl (by simpa [inScope] using hother)
  rw [replaceTransitions, hg.nodesOf_eq, hg.edgesOf_eq]
  simp only [Outcome.ok_bind, hasNode_of_mem howner, Value.str.injEq, Value.elements, hfresh,
    objects_map_obj, putCopies_of_data owner fresh hdata, Bool.not_true, Bool.false_eq_true,
    if_false, ne_eq, Value.text_str]
  have hsync := Graph.sync_ofObjects (nodes.map (listedAs owner fresh))
    (relistedEdges owner fresh edges) (some [owner])
  rw [if_pos hreadable, List.map_map] at hsync
  exact congrArg (Revision.rebuilt <$> ·) hsync

/-- **Changing fields of a node that is there, its list among them**, meets no
fault either: the list is replaced where the other fields were changed before. -/
theorem updateNodeData_eq {stated : Fields}
    (hlist : Fields.get? stated "transitions" = some (.list items)) :
    ∃ nodes₁, List.Forall₂ (ChangedTo (.str owner) (plainChanges stated)) nodes nodes₁
      ∧ updateNodeData document (.str owner) (.obj stated)
        = .ok (.rebuilt (Graph.ofObjects
            (relistedNodes owner ((objectsAmong items).map Value.obj) nodes₁ edges)
            (relistedEdges owner ((objectsAmong items).map Value.obj) edges))) := by
  obtain ⟨values, hvalues⟩ := exists_changeNodes (.str owner) (plainChanges stated) hdata
  obtain ⟨nodes₁, rfl, hall⟩ := changeNodes_eq_ok hvalues
  refine ⟨nodes₁, hall, ?_⟩
  have hids : nodes₁.map idOf = nodes.map idOf :=
    map_eq_map_of_forall₂ (hall.imp fun _ _ hto => hto.idOf_eq)
  have hreplace := replaceTransitions_eq (holds_toValue nodes₁ edges) (hids ▸ howner)
    (fun node₁ hnode₁ => by
      obtain ⟨node, hnode, hto⟩ := exists_of_mem_right hall hnode₁
      exact hto.exists_data (hdata node hnode)) items
  have hread : Fields.get? (Fields.erase stated "id") "transitions" = some (.list items) := by
    rw [Fields.get?_erase, if_neg (by simp), hlist]
  have helements : (Value.list items).elementsOrNone = .ok items := by
    cases items <;> rfl
  rw [plainChanges] at hvalues
  rw [updateNodeData, Value.asFields, Outcome.ok_bind, hg.nodesOf_eq, hg.edgesOf_eq]
  simp only [Outcome.ok_bind, hvalues, hasNode_of_mem howner, hread, helements, Bool.not_true,
    Bool.false_eq_true, if_false]
  rw [← Graph.ofObjects, hreplace]
  rfl

/-- **An edit in the panel takes effect where it is aimed and nowhere else.** In
a graph whose edges have different ids, let the list of a node be replaced by any
items, by itself or along with other fields. The edges from the node are then those
of the objects among the items, in their order, and its list is a copy of them; the
other fields take the values that are stated, but the id stays what it is; and the
other nodes and edges are what they were. -/
theorem panel_relists (hids : (edges.map idOf).Nodup)
    (hitems : ∀ item ∈ items, item.wellFormed = true) :
    (∃ nodes' edges',
      replaceTransitions document (.str owner) (.list items)
        = .ok (.rebuilt (Graph.ofObjects nodes' edges'))
      ∧ Relists owner items [] nodes edges nodes' edges')
    ∧ ∀ updates, (Value.obj updates).wellFormed = true →
      Fields.get? updates "transitions" = some (.list items) →
      ∃ nodes' edges',
        updateNodeData document (.str owner) (.obj updates)
          = .ok (.rebuilt (Graph.ofObjects nodes' edges'))
        ∧ Relists owner items (plainChanges updates) nodes edges nodes' edges' := by
  constructor
  · refine ⟨_, _, replaceTransitions_eq hg howner hdata items, relists_relistedNodes hids hitems
      (List.forall₂_same.mpr fun node _ => ⟨rfl, ?_⟩)⟩
    split
    · exact .refl node
    · rfl
  · intro updates hupdates hlist
    have hchanges : Fields.distinct (plainChanges updates) = true :=
      (Value.wellFormed_obj_iff.mp
        (Value.wellFormed_obj_erase (Value.wellFormed_obj_erase hupdates _) _)).1
    obtain ⟨nodes₁, hall, hupdate⟩ := updateNodeData_eq hg howner hdata hlist
    refine ⟨_, _, hupdate, relists_relistedNodes hids hitems
      (hall.imp fun node node₁ hto => ⟨hto.idOf_eq, ?_⟩)⟩
    rw [ChangedTo] at hto
    simp only [Value.str.injEq] at hto
    split at hto
    next hself => rw [if_pos hself]; exact .of_changeNode hchanges hto
    next hother => rwa [if_neg hother]

end Edits

end Panel

/-- A node that asks for a number, and one that repeats it. -/
def numberNodes : List Fields :=
  [[("id", .str "ask"), ("type", .str "standardNode"), ("data", .obj [("name", .str "Ask")])],
    [("id", .str "repeat"), ("type", .str "standardNode"), ("data", .obj [])]]

/-- Their edges, one between the two either way. -/
def numberEdges : List Fields :=
  [[("id", .str "x"), ("source", .str "ask"), ("target", .str "repeat")],
    [("id", .str "ask-ask-0"), ("source", .str "repeat"), ("target", .str "ask")]]

/-- The graph of those nodes and edges. -/
def numberGraph : Value := (Graph.ofObjects numberNodes numberEdges).toValue

/-- A list for the node that asks, of which one item is no object. -/
def numberItems : List Value :=
  [.int 7, .obj [("target", .str "ask"), ("condition", .str "unclear")], .obj []]

/-- In that graph the list is replaced, by itself or along with the kind. Two edges
are made anew, and that of the other node is left, whose id spells like the first of
them. -/
theorem panel_relists_numberGraph :
    ∃ nodes edges nodes' edges',
      replaceTransitions numberGraph (.str "ask") (.list numberItems)
        = .ok (.rebuilt (Graph.ofObjects nodes edges))
      ∧ (edges.map idOf).Nodup
      ∧ (edges.filter fun edge => sourceOf edge = "ask").length = 2
      ∧ updateNodeData numberGraph (.str "ask") (.obj [("id", .str "tell"),
          ("type", .str "end_call"), ("transitions", .list numberItems)])
        = .ok (.rebuilt (Graph.ofObjects nodes' edges'))
      ∧ edges'.filter (fun edge => sourceOf edge ≠ "ask")
        = numberEdges.filter fun edge => sourceOf edge ≠ "ask" := by
  have hdata : ∀ node ∈ numberNodes, ∃ data, Fields.get node "data" = .obj data :=
    List.forall_mem_cons.mpr ⟨⟨_, rfl⟩, List.forall_mem_cons.mpr ⟨⟨_, rfl⟩, nofun⟩⟩
  have howner : "ask" ∈ numberNodes.map idOf := by decide
  have hitems : ∀ item ∈ numberItems, item.wellFormed = true := by decide
  obtain ⟨⟨nodes, edges, hreplace, hrelists⟩, hupdate⟩ :=
    panel_relists (holds_toValue numberNodes numberEdges) howner hdata (by decide) hitems
  obtain ⟨nodes', edges', hupdated, hrelists'⟩ := hupdate [("id", .str "tell"),
    ("type", .str "end_call"), ("transitions", .list numberItems)] (by decide) rfl
  exact ⟨nodes, edges, nodes', edges', hreplace, hrelists.ids, hrelists.own.length_eq, hupdated,
    hrelists'.others⟩

end CallFlow

import CallFlow.Node.Template
import CallFlow.Proofs.Graph.Consistency

/-!
# Edits of nodes keep a graph consistent

In the panel the list of a node is replaced as a whole, and its edges are
made anew from it, with ids no other edge has. That the fresh edges say what
the list says is `map_ofEdge_edgesFrom`; the node is brought into agreement
all the same, since the list may leave out conditions and priorities that
the edges spell out.

Other fields of a node are changed without any edge noticing: neither the id
nor the list is among them. Removing a node takes its edges along, and the
scope is made of the nodes from which an edge led to it. A node that is
added has an empty list, which is a copy as long as no edge starts from its
id yet.
-/

namespace CallFlow

section NodeEdits

variable {nodes edges : List Fields} {revision : Revision}

/-! ## The list of a node is replaced -/

/-- **Edges made anew stand beside others**: their ids are free, they are
labelled, and they state well-formed priorities. -/
theorem fit_append_edgesFrom {others : List Fields} (hids : (others.map idOf).Nodup)
    (hlabelled : ∀ edge ∈ others, Labelled edge)
    (hpriorities : ∀ edge ∈ others, (Transition.ofEdge edge).priority.wellFormed = true)
    (source : Value) {items : List Value} (hitems : ∀ item ∈ items, item.wellFormed = true) :
    let all := others ++ (edgesFrom source 0 items (some (others.map idOf))).1
    (all.map idOf).Nodup ∧ (∀ edge ∈ all, Labelled edge)
      ∧ ∀ edge ∈ all, (Transition.ofEdge edge).priority.wellFormed = true := by
  obtain ⟨hnodup, hfree⟩ := nodup_edgesFrom source 0 items (others.map idOf)
  refine ⟨?_, fun edge hedge => ?_, fun edge hedge => ?_⟩
  · rw [List.map_append]
    exact List.nodup_append.mpr ⟨hids, hnodup, fun a ha b hb hab => hfree b hb (hab ▸ ha)⟩
  · rcases List.mem_append.mp hedge with hold | hnew
    · exact hlabelled edge hold
    · obtain ⟨id, item, _, rfl⟩ := exists_toEdge_of_mem_edgesFrom _ _ _ _ hnew
      exact labelled_toEdge _ _ _
  · rcases List.mem_append.mp hedge with hold | hnew
    · exact hpriorities edge hold
    · obtain ⟨id, item, hitem, rfl⟩ := exists_toEdge_of_mem_edgesFrom _ _ _ _ hnew
      rw [(Transition.settled_ofItem item).ofEdge_toEdge]
      exact wellFormed_priority_ofItem hitems hitem

/-- **Nodes stay consistent where the list of one is replaced** and its edges are
made anew: their ids are free, and all of them start from the node. -/
theorem Consistent.resyncs_listedAs {nodes₁ : List Fields} (hc : Consistent nodes₁ edges)
    {name : String} {items : List Value} (hitems : ∀ item ∈ items, item.wellFormed = true)
    (h : revision.Resyncs (Graph.ofObjects nodes edges).toValue (nodes₁.map (listedAs name items))
      (relistedEdges name items edges) [name]) :
    IsConsistent (revision.apply (Graph.ofObjects nodes edges).toValue) := by
  have hsub : List.Sublist (edges.filter fun e => sourceOf e ≠ name) edges := List.filter_sublist
  obtain ⟨hids, hlabelled, hpriorities⟩ := fit_append_edgesFrom
    (hc.ids.sublist (hsub.map idOf)) (fun e he => hc.labelled e (hsub.subset he))
    (fun e he => hc.priorities e (hsub.subset he)) (.str name) hitems
  refine h.isConsistent hids hlabelled hpriorities ?_ ?_
  · intro node' hmem'
    obtain ⟨node, hmem, rfl⟩ := List.mem_map.mp hmem'
    have hrel := relisted_listedAs name items node
    rw [hrel.savedId_eq, hrel.idOf_eq]
    exact hc.named node hmem
  · intro node' hmem' hout
    obtain ⟨node, hmem, rfl⟩ := List.mem_map.mp hmem'
    rw [(relisted_listedAs name items node).idOf_eq, List.mem_singleton] at hout
    rw [listedAs, if_neg hout]
    exact (hc.copies node hmem).congr rfl rfl (outgoing_append_edgesFrom hout _ _)

theorem wellFormed_of_mem_objectsAmong {elements : List Value}
    (h : ∀ v ∈ elements, v.wellFormed = true) :
    ∀ item ∈ (objectsAmong elements).map Value.obj, item.wellFormed = true := by
  intro item hitem
  obtain ⟨fields, hfields, rfl⟩ := List.mem_map.mp hitem
  exact h _ (mem_objectsAmong.mp hfields)

/-- **Replacing the list of a node keeps a graph consistent.** -/
theorem isConsistent_replaceTransitions (hc : Consistent nodes edges) {id transitions : Value}
    (htransitions : transitions.wellFormed = true)
    (h : replaceTransitions (Graph.ofObjects nodes edges).toValue id transitions = .ok revision) :
    IsConsistent (revision.apply (Graph.ofObjects nodes edges).toValue) := by
  obtain ⟨_, hcomes⟩ | ⟨name, elements, rfl, _, helements, hresyncs⟩ :=
    replaceTransitions_resyncs (holds_toValue nodes edges) h
  · exact hc.comesTo hcomes
  · exact hc.resyncs_listedAs (wellFormed_of_mem_objectsAmong
      (Value.wellFormed_of_elements htransitions helements)) hresyncs

/-! ## Other fields of a node are changed -/

theorem get_overlay_of_none {fields changes : Fields} {key : Key}
    (h : Fields.get? changes key = none) :
    Fields.get (Fields.overlay fields changes) key = Fields.get fields key := by
  rw [Fields.get, Fields.get?_overlay_of_none h, Fields.get]

/-- Nodes stay consistent with the edges where neither an id nor a list is
changed. -/
theorem Consistent.of_changedTo (hc : Consistent nodes edges) {id : Value} {changes : Fields}
    {nodes' : List Fields} (hid : Fields.get? changes "id" = none)
    (hlist : Fields.get? changes "transitions" = none)
    (hall : List.Forall₂ (ChangedTo id changes) nodes nodes') : Consistent nodes' edges := by
  refine { hc with copies := fun node' hmem' => ?_, named := fun node' hmem' => ?_ }
  · obtain ⟨node, hmem, hto⟩ := exists_of_mem_right hall hmem'
    unfold ChangedTo at hto
    split at hto
    · obtain ⟨hsame, hdata⟩ := changeNode_spec hto
      refine (hc.copies node hmem).congr (by rw [idOf, hsame, idOf]) ?_ rfl
      rw [hdata, get_overlay_of_none hlist]
    · exact hto ▸ hc.copies node hmem
  · obtain ⟨node, hmem, hto⟩ := exists_of_mem_right hall hmem'
    unfold ChangedTo at hto
    split at hto
    · obtain ⟨hsame, hdata⟩ := changeNode_spec hto
      rw [idOf, savedId, hsame, hdata, get_overlay_of_none hid]
      exact hc.named node hmem
    · exact hto ▸ hc.named node hmem

/-- **Changing fields of a node keeps a graph consistent**, whether or not
the list of transitions is among them. -/
theorem isConsistent_updateNodeData (hc : Consistent nodes edges) {id updates : Value}
    (hupdates : updates.wellFormed = true)
    (h : updateNodeData (Graph.ofObjects nodes edges).toValue id updates = .ok revision) :
    IsConsistent (revision.apply (Graph.ofObjects nodes edges).toValue) := by
  obtain ⟨stated, hstated, ⟨_, hcomes⟩ | ⟨name, nodes', rfl, _, hall, hrest⟩⟩ :=
    updateNodeData_resyncs (holds_toValue nodes edges) h
  · exact hc.comesTo hcomes
  have hchanged : Consistent nodes' edges := by
    refine hc.of_changedTo ?_ ?_ hall
    · rw [plainChanges, Fields.get?_erase, if_neg (by simp), Fields.get?_erase, if_pos (by simp)]
    · rw [plainChanges, Fields.get?_erase, if_pos (by simp)]
  obtain ⟨_, hcomes⟩ | ⟨transitions, elements, hread, helements, hresyncs⟩ := hrest
  · exact hchanged.comesTo hcomes
  · have hwf := Fields.wellFormed_get (Value.wellFormed_asFields hupdates hstated) "transitions"
    rw [Fields.get, hread] at hwf
    exact hchanged.resyncs_listedAs (wellFormed_of_mem_objectsAmong
      (Value.wellFormed_of_elementsOrNone hwf helements)) hresyncs

/-! ## Nodes are removed and added -/

/-- **Removing a node keeps a graph consistent**: a node that loses an edge
is one from which an edge led to it. -/
theorem isConsistent_deleteNode (hc : Consistent nodes edges) {id : Value}
    (h : deleteNode (Graph.ofObjects nodes edges).toValue id = .ok revision) :
    IsConsistent (revision.apply (Graph.ofObjects nodes edges).toValue) := by
  refine hc.resyncs_filter List.filter_sublist (fun node hmem hout edge he hfrom => ?_)
    (deleteNode_resyncs (holds_toValue nodes edges) h)
  have hother : Value.str (idOf node) ≠ id := of_decide_eq_true (List.mem_filter.mp hmem).2
  rw [hfrom, decide_eq_true hother, Bool.true_and]
  by_contra hto
  -- an edge to the node that is removed would have put its source into the scope
  refine hout (List.mem_filter.mpr ⟨List.mem_map.mpr ⟨edge,
    List.mem_filter.mpr ⟨he, by simpa using hto⟩, hfrom⟩, by simpa using hother⟩)

theorem get?_id_templateFor (id kind : Value) :
    Fields.get? (templateFor id kind) "id" = some id := by
  unfold templateFor
  split
  next k _ => cases k <;> simp [NodeKind.template, Fields.get?]
  next => simp [Fields.get?]

theorem get_id_templateFor (id kind : Value) : Fields.get (templateFor id kind) "id" = id := by
  rw [Fields.get, get?_id_templateFor, Option.getD_some]

theorem get_transitions_templateFor (id kind : Value) :
    Fields.get (templateFor id kind) "transitions" = .null := by
  unfold templateFor
  split
  next k _ => cases k <;> simp [NodeKind.template, Fields.get, Fields.get?]
  next => simp [Fields.get, Fields.get?]

/-- **Adding a node keeps a graph consistent** where its id is a text that
no edge starts from. -/
theorem isConsistent_addNode (hc : Consistent nodes edges) {kind position given : Value}
    {draw : Draw} {id : String} (hfree : ∀ edge ∈ edges, sourceOf edge ≠ id)
    (h : addNode (Graph.ofObjects nodes edges).toValue kind position given draw
      = .ok (revision, .str id)) :
    IsConsistent (revision.apply (Graph.ofObjects nodes edges).toValue) := by
  obtain ⟨node, hcomes, hid, hdata, _⟩ := addNode_comesTo (holds_toValue nodes edges) h
  have hidOf : idOf node = id := by rw [idOf, hid, Value.idText_str]
  refine Consistent.comesTo { hc with copies := ?_, named := ?_ } hcomes
  · intro other hmem
    rcases List.mem_append.mp hmem with hold | hnew
    · exact hc.copies other hold
    · rw [List.mem_singleton.mp hnew]
      refine ⟨[], ?_, ?_⟩
      · rw [hdata, cachedTransitions, get_transitions_templateFor]
        rfl
      · rw [hidOf, outgoing_eq_nil hfree]
        exact .nil
  · intro other hmem
    rcases List.mem_append.mp hmem with hold | hnew
    · exact hc.named other hold
    · rw [List.mem_singleton.mp hnew, savedId, hdata, get_id_templateFor, hid, idOf, hid]
      by_cases hblank : id = "" <;> simp [Value.orElse, hblank]

end NodeEdits

end CallFlow

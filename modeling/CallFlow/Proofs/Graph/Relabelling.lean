import CallFlow.Proofs.Config.Likeness
import CallFlow.Proofs.Graph.Consistency

/-!
# Relabelling edges that share an id

Edges need not have ids of their own: edges without one all have the empty id,
and several may be given the same. Relabelling changes every edge of an id, but
brings only the node into agreement from which the *last* of them starts. Where
they all start from one node, or there is one edge of the id, that is enough.
Where they do not, the other nodes are left with the lists they had.

How much that matters is said exactly (`updateEdge_relists`): a node other than
the last still has a copy just if its edges say what they said before. The delicate
half is that a list which is a copy of two sequences of edges makes these say the
same; it takes that what says the same as a priority can be turned round and
chained, where the priority stands in the list and not with an edge.
-/

namespace CallFlow

/-! ## Copies of two sequences of edges -/

section Copies

variable {edges edges' : List Fields} {node : Fields}

theorem wellFormed_cachedTransitions (h : (Value.obj node).wellFormed = true) :
    (cachedTransitions (dataOf node)).wellFormed = true := by
  have hdata := Fields.wellFormed_get (Value.fieldsWellFormed_fieldsOrNone h) "data"
  exact Value.wellFormed_orElse
    (Fields.wellFormed_get (Value.fieldsWellFormed_fieldsOrNone hdata) "transitions") rfl

/-- **A list that is a copy of some edges is a copy of others** just if these
say the same of the node, one by one. -/
theorem Copies.iff_alike (hcopies : Copies edges node)
    (hnode : (Value.obj node).wellFormed = true)
    (hpriorities : ∀ edge ∈ edges, (Transition.ofEdge edge).priority.wellFormed = true) :
    Copies edges' node
      ↔ List.Forall₂ Transition.Alike (outgoing edges' (idOf node))
          (outgoing edges (idOf node)) := by
  obtain ⟨items, hitems, hold⟩ := hcopies
  have hwell : ∀ item ∈ items, item.wellFormed = true := by
    have := wellFormed_cachedTransitions hnode
    rw [hitems] at this
    exact Value.wellFormed_list.mp this
  constructor
  · rintro ⟨items', hitems', hnew⟩
    obtain rfl := Value.list.inj (hitems'.symm.trans hitems)
    have hold' := forall₂_imp_of_mem hold fun u hu item h =>
      (⟨h, hu⟩ : restates u.toItem item = true ∧ u ∈ outgoing edges (idOf node))
    refine (forall₂_comp hnew hold'.flip).imp ?_
    rintro t u ⟨item, hitem, ht, hu, hmem⟩
    obtain ⟨edge, hedge, rfl⟩ := List.mem_map.mp hmem
    obtain ⟨fields, rfl, hc, hg, hp⟩ := restates_toItem_iff.mp ht
    obtain ⟨_, hobj, hc', hg', hp'⟩ := restates_toItem_iff.mp hu
    obtain rfl := Value.obj.inj hobj
    refine ⟨Value.str.inj (hc'.symm.trans hc), Value.str.inj (hg'.symm.trans hg), ?_⟩
    exact Value.saysSame_trans _ hp (Value.saysSame_symm _
      (hpriorities edge (List.mem_of_mem_filter hedge))
      (Fields.wellFormed_get (Value.fieldsWellFormed_fieldsOrNone (hwell _ hitem)) "priority") hp')
  · intro halike
    refine ⟨items, hitems, (forall₂_comp halike hold).imp ?_⟩
    rintro t item ⟨u, _, htu, hu⟩
    obtain ⟨fields, rfl, hc, hg, hp⟩ := restates_toItem_iff.mp hu
    refine restates_toItem_iff.mpr ⟨fields, rfl, ?_, ?_, Value.saysSame_trans _ htu.priority hp⟩
    · rw [hc, htu.condition]
    · rw [hg, htu.target]

end Copies

/-! ## Edges of an id -/

section Relabel

variable {document : Value} {nodes edges edges' : List Fields} {id condition priority : Value}

/-- An edge states a well-formed priority after it was relabelled. -/
theorem RelabelledTo.wellFormed_priority {edge edge' : Fields}
    (h : RelabelledTo id condition priority edge edge')
    (hedge : (Value.obj edge).wellFormed = true) (hpriority : priority.wellFormed = true) :
    (Transition.ofEdge edge').priority.wellFormed = true := by
  unfold RelabelledTo at h
  split at h
  · obtain ⟨data, hdata, h⟩ := Outcome.bind_eq_ok.mp h
    obtain rfl := Except.ok.inj h
    have hdata' : (Fields.get edge "data").wellFormed = true :=
      Fields.wellFormed_get (Value.fieldsWellFormed_fieldsOrNone hedge) "data"
    have hread : (Fields.get data "priority").wellFormed = true :=
      Fields.wellFormed_get (Value.wellFormed_asFields (Value.wellFormed_orElse hdata' rfl) hdata) _
    refine Value.wellFormed_orElse ?_ rfl
    rw [Fields.get_put_self, Value.fieldsOrNone, get_putUnlessNull, get_putUnlessNull]
    split
    · exact hpriority
    · rw [if_neg (by simp)]
      exact hread
  · rw [h]
    exact Transition.wellFormed_priority_ofEdge hedge

/-- A node does not notice that the edges of an id are relabelled if none of
them starts from it. -/
theorem outgoing_of_relabelledTo {owner : String}
    (h : List.Forall₂ (RelabelledTo id condition priority) edges edges')
    (hothers : ∀ edge ∈ edges, Value.str (idOf edge) = id → sourceOf edge ≠ owner) :
    outgoing edges' owner = outgoing edges owner := by
  refine outgoing_congr (forall₂_imp_of_mem h fun edge hedge edge' hto =>
    ⟨hto.sourceOf_eq, fun hfrom => ?_⟩)
  rw [RelabelledTo, if_neg fun hid => hothers edge hedge hid hfrom] at hto
  rw [hto]

/-- **What relabelling the edges of an id leaves of copies.** Where every list is
a copy before, a list is one afterwards just if the last edge of the id starts
from its node, or what the edges from the node say has stayed the same. So every
list is one where the edges of the id all start from one node. -/
theorem updateEdge_relists (hdocument : document.wellFormed = true)
    (hpriority : priority.wellFormed = true) (hg : Holds document nodes edges)
    (hcopies : ∀ node ∈ nodes, Copies edges node) {revision : Revision}
    (h : updateEdge document id condition priority = .ok revision) :
    ∃ nodes' edges', Holds (revision.apply document) nodes' edges'
      ∧ List.Forall₂ (RelabelledTo id condition priority) edges edges'
      ∧ List.Forall₂ (fun node node' => Relisted node node'
          ∧ (Copies edges' node' ↔ lastSource id edges = some (idOf node)
            ∨ List.Forall₂ Transition.Alike (outgoing edges' (idOf node))
                (outgoing edges (idOf node)))) nodes nodes'
      ∧ ((∀ edge ∈ edges, Value.str (idOf edge) = id
            → lastSource id edges = some (sourceOf edge))
          → ∀ node' ∈ nodes', Copies edges' node') := by
  obtain ⟨edges', hrelabelled, nodes', hcomes, hsynced⟩ := updateEdge_resyncs hg h
  have hpriorities := hg.wellFormed_priorities hdocument
  have hpriorities' :
      ∀ edge' ∈ edges', (Transition.ofEdge edge').priority.wellFormed = true := by
    intro edge' hedge'
    obtain ⟨edge, hedge, hto⟩ := exists_of_mem_right hrelabelled hedge'
    exact hto.wellFormed_priority
      (wellFormed_of_edgesOf hdocument hg.edgesOf_eq _ (List.mem_map_of_mem hedge)) hpriority
  have hnodes : List.Forall₂ (fun node node' => Relisted node node'
      ∧ (Copies edges' node' ↔ lastSource id edges = some (idOf node)
        ∨ List.Forall₂ Transition.Alike (outgoing edges' (idOf node))
            (outgoing edges (idOf node)))) nodes nodes' := by
    refine forall₂_imp_of_mem hsynced fun node hnode node' hsync => ⟨hsync.relisted, ?_⟩
    by_cases hlast : lastSource id edges = some (idOf node)
    · refine iff_of_true (hsync.copies hpriorities' fun hout => ?_) (.inl hlast)
      simp [inScope, hlast] at hout
    · have hout : idOf node ∉ (lastSource id edges).toList := by simpa using hlast
      rw [hsync.eq_of_not_mem hout, or_iff_right hlast]
      exact (hcopies node hnode).iff_alike
        (wellFormed_of_nodesOf hdocument hg.nodesOf_eq _ (List.mem_map_of_mem hnode)) hpriorities
  refine ⟨nodes', edges', hcomes.holds, hrelabelled, hnodes, fun hone node' hnode' => ?_⟩
  obtain ⟨node, _, _, hiff⟩ := exists_of_mem_right hnodes hnode'
  refine hiff.mpr (or_iff_not_imp_left.mpr fun hlast => ?_)
  have hkept : outgoing edges' (idOf node) = outgoing edges (idOf node) :=
    outgoing_of_relabelledTo hrelabelled fun edge hedge hid hfrom =>
      hlast (by rw [hone edge hedge hid, hfrom])
  rw [hkept]
  refine List.forall₂_same.mpr fun t ht => ?_
  obtain ⟨edge, hedge, rfl⟩ := List.mem_map.mp ht
  exact .refl (hpriorities edge (List.mem_of_mem_filter hedge))

end Relabel

/-- A node that goes on to another. -/
def unnamedNode (id other : String) : Fields :=
  [("id", .str id), ("data", .obj [("transitions", .list [.obj [("condition", .str "always"),
    ("target", .str other), ("priority", .int 0)]])])]

/-- Two edges, one either way, of which neither has an id. -/
def unnamedEdges : List Fields :=
  [[("source", .str "a"), ("target", .str "b")], [("source", .str "b"), ("target", .str "a")]]

/-- Two nodes and those edges. -/
def unnamedGraph : Value :=
  (Graph.ofObjects [unnamedNode "a" "b", unnamedNode "b" "a"] unnamedEdges).toValue

/-- Where both edges are relabelled, the node follows from which the second
starts. -/
theorem updateEdge_relists_unnamed :
    ∃ revision nodes edges,
      updateEdge unnamedGraph (.str "") (.str "timeout:5s") .null = .ok revision
      ∧ Holds (revision.apply unnamedGraph) nodes edges
      ∧ ∃ node ∈ nodes, idOf node = "b" ∧ Copies edges node := by
  have hdone : (do
      let _ ← updateEdge unnamedGraph (.str "") (.str "timeout:5s") .null
      return ()) = Except.ok () := by decide +kernel
  have hagree : ∀ node ∈ [unnamedNode "a" "b", unnamedNode "b" "a"],
      nodeAgrees (unnamedEdges.map Value.obj) node = .ok true := by decide +kernel
  have hlast : lastSource (.str "") unnamedEdges = some (idOf (unnamedNode "b" "a")) := by
    decide +kernel
  obtain ⟨revision, hrevision, _⟩ := Outcome.bind_eq_ok.mp hdone
  obtain ⟨nodes, edges, hholds, _, hnodes, _⟩ := updateEdge_relists (by decide +kernel)
    (by decide +kernel) (holds_toValue _ _)
    (fun node hnode => copies_of_nodeAgrees (hagree node hnode)) hrevision
  obtain ⟨node, hnode, hrelisted, hiff⟩ :=
    exists_of_mem_left hnodes (List.mem_cons_of_mem _ List.mem_cons_self)
  exact ⟨revision, nodes, edges, hrevision, hholds, node, hnode,
    hrelisted.idOf_eq.trans (by decide +kernel), hiff.mpr (.inl hlast)⟩

/-- **Where edges of an id start from different nodes**, only the last of these
is brought into agreement. -/
theorem updateEdge_unsynced_unnamed :
    Synced.updated <$> sync unnamedGraph none = .ok []
      ∧ (do
          let revision ← updateEdge unnamedGraph (.str "") (.str "timeout:5s") .null
          Synced.updated <$> sync (revision.apply unnamedGraph) none) = Except.ok ["a"] := by
  decide +kernel

end CallFlow

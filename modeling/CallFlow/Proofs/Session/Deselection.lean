import CallFlow.Proofs.Session.Dangling

/-!
# Taking away what is selected

Three steps take something away: a node is removed with its edges, an edge is
removed, or the latest edit is taken back. Each sees to the selection in a way
of its own. Removing an edge compares ids; removing a node compares ids, and
looks a selected edge up among the edges that are left; taking back looks up
either. They come to the same: what is selected stays so just if it is still
there (`selection_takesAway`).

That nothing stays selected which is gone is known of every step that replaces no
list (`keepsTrack_step`). The other half is that nothing is dropped which is still
there. Where ids alone are compared, this takes that no node and no edge of the id
is left (`not_mem_nodeIds_deleteNode`, `not_mem_edgeIds_removeEdges`).
-/

namespace CallFlow

theorem Value.eq_str_of_agrees {v : Value} {id : String} (h : v.agrees (.str id) = true) :
    v = .str id := by
  cases v <;> simp_all [agrees, saysSame, isUndefined, number?]

/-- Whether what is selected, if anything is, is there in a graph. -/
def Selection.Shown (graph : Value) (selection : Selection) : Prop :=
  selection.NodeAmong (nodeIds graph) ∧ selection.EdgeAmong (edgeIds graph)

/-- What is there has a text for an id. -/
theorem Selection.Shown.isNamed {graph : Value} {selection : Selection}
    (h : selection.Shown graph) : selection.isNamed = true := by
  cases selection with
  | none => rfl
  | node id =>
    obtain ⟨_, _, rfl⟩ := h.1
    rfl
  | edge id =>
    obtain ⟨_, _, rfl⟩ := h.2
    rfl

/-- **A step takes something away**: the node or the edge of an id that is a text,
or the latest edit. -/
inductive Step.TakesAway : Step → Prop
  /-- A node is removed. -/
  | deleteNode (id : String) : TakesAway (.deleteNode (.str id))
  /-- An edge is removed. -/
  | deleteEdge (id : String) : TakesAway (.deleteEdge (.str id))
  /-- The latest edit is taken back. -/
  | undo : TakesAway .undo

/-! ## What is left of an id -/

section Ids

variable {document : Value} {nodes edges : List Fields} (hg : Holds document nodes edges)
  {id : String} {revision : Revision}

include hg

/-- **No edge has the id of an edge that was removed.** -/
theorem not_mem_edgeIds_removeEdges
    (h : removeEdges document (.list [.str id]) = .ok revision) :
    id ∉ edgeIds (revision.apply document) := by
  obtain ⟨doomed, hdoomed, nodes', hcomes, _⟩ := removeEdges_resyncs hg h
  obtain rfl : [id] = doomed := Except.ok.inj hdoomed
  rw [hcomes.holds.edgeIds_eq]
  intro hmem
  obtain ⟨edge, hedge, rfl⟩ := List.mem_map.mp hmem
  simpa using (List.mem_filter.mp hedge).2

/-- **No node has the id of a node that was removed.** -/
theorem not_mem_nodeIds_deleteNode (h : deleteNode document (.str id) = .ok revision) :
    id ∉ nodeIds (revision.apply document) := by
  obtain ⟨nodes', hcomes, hall⟩ := deleteNode_resyncs hg h
  rw [hcomes.holds.nodeIds_eq,
    map_eq_map_of_forall₂ (hall.imp fun _ _ hsynced => hsynced.relisted.idOf_eq)]
  intro hmem
  obtain ⟨node, hnode, rfl⟩ := List.mem_map.mp hmem
  exact of_decide_eq_true (List.mem_filter.mp hnode).2 rfl

end Ids

namespace Session

/-! ## What is not dropped -/

section Kept

variable {s : Session}

/-- An edge other than the one that was removed is not dropped. -/
theorem forgetEdge_of_ne {id : String} (h : s.selection ≠ .edge (.str id)) :
    s.forgetEdge (.str id) = s := by
  rw [forgetEdge]
  split
  next selected hselected =>
    refine if_neg fun hagrees => h ?_
    rw [hselected, Value.eq_str_of_agrees hagrees]
  next => rfl

/-- A node other than the one that was removed is not dropped. -/
theorem forgetNode_of_ne {id : String} (h : s.selection ≠ .node (.str id)) :
    s.forgetNode (.str id) = s := by
  rw [forgetNode]
  split
  next selected hselected =>
    refine if_neg fun hagrees => h ?_
    rw [hselected, Value.eq_str_of_agrees hagrees]
  next => rfl

theorem dropLostEdge_of_edgeAmong (hlisted : IsListed s.graph)
    (h : s.selection.EdgeAmong (edgeIds s.graph)) : s.dropLostEdge = (s, .ok .null) := by
  rw [dropLostEdge, (idsUnder_of_isListed hlisted).2]
  exact keepEdgeAmong_of_edgeAmong h

theorem dropLost_of_shown (hlisted : IsListed s.graph) (h : s.selection.Shown s.graph) :
    s.dropLost = (s, .ok .null) := by
  rw [dropLost, (idsUnder_of_isListed hlisted).1, (idsUnder_of_isListed hlisted).2]
  show andThen (s.keepNodeAmong (nodeIds s.graph)) _ = _
  rw [keepNodeAmong_of_nodeAmong h.1]
  exact keepEdgeAmong_of_edgeAmong h.2

/-- **Undoing drops nothing that is in the graph it goes back to.** -/
theorem undo_of_shown {graph : Value} {history : List Value}
    (hhistory : s.history = graph :: history) (hlisted : IsListed graph)
    (h : s.selection.Shown graph) :
    s.undo = ({ s with graph := graph, history := history }, .ok (.bool true)) := by
  have hkept : dropLost { s with graph := graph, history := history }
      = ({ s with graph := graph, history := history }, .ok .null) := dropLost_of_shown hlisted h
  rw [undo_of_history hhistory, hkept]
  rfl

end Kept

/-! ## The three steps -/

section Steps

variable {s : Session} {t : Step} (hlisted : s.Listed) (hs : s.selection.Shown s.graph)
  (ht : t.TakesAway)

include hlisted ht

/-- **Nothing is dropped that is still there.** -/
theorem selection_of_shown (hstill : s.selection.Shown (s.step t).1.graph) :
    (s.step t).1.selection = s.selection := by
  obtain ⟨nodes, edges, hstates⟩ := hlisted s.graph List.mem_cons_self
  cases s.comesTo t with
  | selectNode | selectEdge | clearSelection | save => cases ht
  | rejected _ hstep | idle _ hstep => rw [hstep]
  | returned hhistory =>
    rw [step, (sameGraphs_undo hhistory).1] at hstill
    rw [step, undo_of_shown hhistory (hlisted.isListed_of_history hhistory) hstill]
  | @edited _ revision hedit =>
    rw [(sameGraphs_step_of_edit hedit).1, graph_commit] at hstill
    rw [(step_of_edit hedit).1]
    -- what is selected is not what was removed, for that is not there any more
    cases ht with
    | deleteEdge id =>
      have hne : (s.commit revision).selection ≠ .edge (.str id) := by
        intro heq
        rw [← selection_commit s revision, heq] at hstill
        obtain ⟨name, hmem, hname⟩ := hstill.2
        obtain rfl := Value.str.inj hname
        exact not_mem_edgeIds_removeEdges hstates.holds (Option.some.inj hedit) hmem
      rw [tidy, forgetEdge_of_ne hne, selection_commit]
    | deleteNode id =>
      have hne : (s.commit revision).selection ≠ .node (.str id) := by
        intro heq
        rw [← selection_commit s revision, heq] at hstill
        obtain ⟨name, hmem, hname⟩ := hstill.1
        obtain rfl := Value.str.inj hname
        exact not_mem_nodeIds_deleteNode hstates.holds (Option.some.inj hedit) hmem
      rw [tidy, forgetNode_of_ne hne, dropLostEdge_of_edgeAmong, selection_commit]
      · rw [graph_commit]
        exact isListed_deleteNode (Option.some.inj hedit)
      · rw [selection_commit, graph_commit]
        exact hstill.2
    | undo => cases hedit

include hs

/-- **Nothing stays selected that is gone**, and nothing else is selected. -/
theorem shown_of_takesAway :
    (s.step t).1.selection = .none
      ∨ (s.step t).1.selection = s.selection ∧ s.selection.Shown (s.step t).1.graph := by
  have hkept : (s.step t).1.selection = .none ∨ (s.step t).1.selection = s.selection := by
    cases s.comesTo t with
    | selectNode | selectEdge | clearSelection | save => cases ht
    | rejected _ hstep | idle _ hstep => exact .inr (by rw [hstep])
    | returned hhistory =>
      rcases (undo_of_isListed hhistory hs.isNamed
        (hlisted.isListed_of_history hhistory)).2 with hdropped | ⟨hkept, _⟩
      · exact .inl (by rw [step, hdropped])
      · exact .inr (by rw [step, hkept])
    | edited hedit =>
      rcases deselects_step_of_edit hs.isNamed hedit with hdropped | ⟨hkept, _⟩
      · exact .inl (by rw [hdropped])
      · exact .inr (by rw [hkept, selection_commit])
  have htrack : s.KeepsTrack t :=
    keepsTrack_step hlisted hs.isNamed hs.1 (by cases ht <;> rfl)
  refine hkept.imp_right fun hsame => ⟨hsame, hsame ▸ htrack.node, ?_⟩
  rcases htrack.edge with hedge | ⟨_, hloses⟩
  · exact hsame ▸ hedge
  · -- none of the three replaces a list
    obtain ⟨_, _, _, _, _, _, hreplaces, _⟩ := hloses hs.2
    cases ht <;> cases hreplaces

end Steps

/-- **What is selected stays so just if it is still there.** In a run of a session
on a configuration, let a node or an edge be selected that is there, or nothing, and
then a node or an edge be removed or the latest edit be taken back. What was selected
stays selected if it is in the graph that is left, and otherwise nothing is selected. -/
theorem selection_takesAway {settings : Settings} {config : Value} {first : Session}
    (hfirst : ofConfig settings config = .ok first) (steps : List Step)
    (hshown : (first.run steps).selection.Shown (first.run steps).graph) {t : Step}
    (ht : t.TakesAway) :
    ((first.run steps).selection.Shown ((first.run steps).step t).1.graph
        → ((first.run steps).step t).1.selection = (first.run steps).selection)
      ∧ (¬ (first.run steps).selection.Shown ((first.run steps).step t).1.graph
        → ((first.run steps).step t).1.selection = .none) := by
  have hlisted : (first.run steps).Listed := (listed_ofConfig hfirst).run steps
  refine ⟨selection_of_shown hlisted ht, fun hgone => ?_⟩
  rcases shown_of_takesAway hlisted hshown ht with hnone | ⟨_, hstill⟩
  · exact hnone
  · exact absurd hstill hgone

/-- Another edge is drawn, and the one that was there is selected. -/
def pickLoop : List Step :=
  [.connect (.str "a") (.str "a") (.str "timeout") (.int 0), .selectEdge (.str "a-a-0")]

/-- It stays selected where the drawing is taken back, and not where the node is
removed. -/
theorem selection_takesAway_loop :
    ∃ first, ofConfig .default (loopConfig (.int 1)) = .ok first
      ∧ ((first.run pickLoop).step .undo).1.selection = .edge (.str "a-a-0")
      ∧ ((first.run pickLoop).step (.deleteNode (.str "a"))).1.selection = .none := by
  have hfirst : ofConfig .default (loopConfig (.int 1)) = .ok (loopSession (.int 1)) := by
    decide +kernel
  have hselection : ((loopSession (.int 1)).run pickLoop).selection = .edge (.str "a-a-0") := by
    decide +kernel
  have hgone : edgeIds (((loopSession (.int 1)).run pickLoop).step
      (.deleteNode (.str "a"))).1.graph = [] := by decide +kernel
  have hshown : ∀ graph, "a-a-0" ∈ edgeIds graph → (Selection.edge (.str "a-a-0")).Shown graph :=
    fun _ hmem => ⟨trivial, "a-a-0", hmem, rfl⟩
  have hstays := fun t => @selection_takesAway _ _ _ hfirst pickLoop
    (hselection ▸ hshown _ (by decide +kernel)) t
  rw [hselection] at hstays
  refine ⟨_, hfirst, (hstays .undo .undo).1 (hshown _ (by decide +kernel)),
    (hstays _ (.deleteNode "a")).2 ?_⟩
  rintro ⟨_, name, hname, _⟩
  rw [hgone] at hname
  cases hname

end Session

end CallFlow

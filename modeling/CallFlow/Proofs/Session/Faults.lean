import CallFlow.Proofs.Session.Selection

/-!
# Which steps are all or nothing

A step that meets a fault should leave a session as it was. Of the steps one
may not, which is undoing: it first shows the graph it goes back to and then
looks there for what is selected, and that look meets a fault where the graph
does not state its lists. By then the graph that was shown is gone, and so is
the place in the history (`undo_of_not_isListed`).

A session can be started on a graph of that kind, for everything else reads a
list that is missing, or null, as an empty one. Where it is started on any other
graph every step is all or nothing, and where it is started on such a graph one
edit is enough to go wrong (`allOrNothing_iff`).
-/

namespace CallFlow.Session

/-- **Every step of every run is all or nothing**, as long as ids of what is
selected are texts. -/
def AllOrNothing (first : Session) : Prop :=
  ∀ steps t fault, (first.run steps).selection.isNamed = true →
    ((first.run steps).step t).2 = .error fault →
    ((first.run steps).step t).1 = first.run steps

/-! ## The first graph -/

/-- **The graph a session starts on** has no keys besides the lists, and both
lists can be read. -/
theorem graph_of_start {document : Value} {first : Session} (h : start document = .ok first) :
    Revision.unchanged first.graph = .ok .kept
      ∧ ∃ nodes edges, nodesOf first.graph = .ok nodes ∧ edgesOf first.graph = .ok edges := by
  obtain ⟨synced, hsync, rfl⟩ := start_spec h
  obtain ⟨edges, hedges, hsync⟩ := Outcome.bind_eq_ok.mp hsync
  obtain ⟨scope, _, hsync⟩ := Outcome.bind_eq_ok.mp hsync
  obtain ⟨nodes, hnodes, hsync⟩ := Outcome.bind_eq_ok.mp hsync
  obtain ⟨⟨nodes', updated⟩, _, hsync⟩ := Outcome.bind_eq_ok.mp hsync
  dsimp only at hsync
  split at hsync
  · obtain ⟨revision, hunchanged, hsync⟩ := Outcome.bind_eq_ok.mp hsync
    obtain rfl := Except.ok.inj hsync
    obtain ⟨hedges', hnodes'⟩ := lists_of_unchanged hunchanged hedges hnodes
    exact ⟨unchanged_of_kept hunchanged, nodes, edges, hnodes', hedges'⟩
  · obtain rfl := Except.ok.inj hsync
    exact ⟨rfl, nodes', edges, nodesOf_toValue _, edgesOf_toValue _⟩

/-- Adding a node at the corner of the canvas. -/
def addCornerNode : Step := .addNode (.str "standard") (.obj []) (.str "corner") {}

/-- **That can be done with any graph whose lists can be read.** -/
theorem exists_edit_addCornerNode {document : Value} {nodes edges : List Value}
    (hnodes : nodesOf document = .ok nodes) (hedges : edgesOf document = .ok edges) :
    ∃ g, addCornerNode.edit? document = some (.ok (.rebuilt g)) := by
  rw [addCornerNode, Step.edit?, CallFlow.addNode, hnodes, hedges]
  exact ⟨_, rfl⟩

/-! ## When steps are all or nothing -/

/-- **Where the first graph states its lists every step is all or nothing.** -/
theorem Listed.allOrNothing {first : Session} (hlisted : first.Listed) : first.AllOrNothing := by
  intro steps t fault hs hfault
  rcases step_of_error hs hfault with hsame | ⟨_, graph, history, hhistory, hgraph, _⟩
  · exact hsame
  · exact absurd ((hlisted.run steps).isListed_of_history hhistory) hgraph

/-- **Where it does not, taking back an edit of it is not**: undoing meets a
fault when it is back at the first graph. -/
theorem isListed_of_allOrNothing {document : Value} {first : Session}
    (h : start document = .ok first) (hall : first.AllOrNothing) : IsListed first.graph := by
  by_contra hlisted
  obtain ⟨hkeys, nodes, edges, hnodes, hedges⟩ := graph_of_start h
  obtain ⟨g, hedit⟩ := exists_edit_addCornerNode hnodes hedges
  obtain ⟨hempty, hnone⟩ := fresh_of_start h
  have hnamed : (first.run [addCornerNode]).selection.isNamed = true :=
    (deselects_step_of_edit (by rw [hnone]; rfl) hedit).isNamed (by
      rw [selection_commit, hnone]
      rfl)
  have hhistory : (first.run [addCornerNode]).history = [first.graph] := by
    rw [← hempty]
    exact (sameGraphs_step_of_edit hedit).2
  obtain ⟨fault, hundo⟩ := undo_of_not_isListed hhistory hkeys hlisted
  have hsame := hall [addCornerNode] .undo fault hnamed (congrArg Prod.snd hundo)
  -- the place in the history is gone
  have hgone : ((first.run [addCornerNode]).step .undo).1.history = [] := by
    rw [step, hundo]
  rw [hsame, hhistory] at hgone
  cases hgone

/-- **A step that meets a fault has changed nothing, or it goes back to a graph
that does not state its lists**; then that graph is shown, and the history ends
before it. In a session that was started on some document every step of every
run is all or nothing exactly if the first graph states its lists. -/
theorem allOrNothing_iff {document : Value} {first : Session} (h : start document = .ok first) :
    (∀ steps t fault, (first.run steps).selection.isNamed = true →
      ((first.run steps).step t).2 = .error fault →
      ((first.run steps).step t).1 = first.run steps
        ∨ t = .undo ∧ ∃ graph history, (first.run steps).history = graph :: history
          ∧ ¬ IsListed graph
          ∧ ((first.run steps).step t).1
            = { first.run steps with graph := graph, history := history })
    ∧ (first.AllOrNothing ↔ IsListed first.graph) := by
  refine ⟨fun steps t fault hs hfault => step_of_error hs hfault,
    isListed_of_allOrNothing h, fun hlisted => ?_⟩
  refine Listed.allOrNothing fun document hmem => ?_
  rw [(fresh_of_start h).1] at hmem
  obtain rfl := List.mem_singleton.mp hmem
  exact hlisted

/-- A graph of one node that leaves out the other list. -/
def edgelessGraph : Value :=
  .obj [("nodes", .list [.obj [("id", .str "a"), ("type", .str "standardNode"),
    ("position", .obj [("x", .int 0), ("y", .int 0)]),
    ("data", .obj [("id", .str "a"), ("type", .str "standard")])]])]

/-- The same graph with an empty list for its edges. -/
def loneGraph : Value :=
  .obj [("nodes", .list [.obj [("id", .str "a"), ("type", .str "standardNode"),
    ("position", .obj [("x", .int 0), ("y", .int 0)]),
    ("data", .obj [("id", .str "a"), ("type", .str "standard")])]]), ("edges", .list [])]

/-- A session on a graph of one node that states both lists. -/
theorem allOrNothing_loneGraph :
    ∃ first, start loneGraph = .ok first ∧ first.AllOrNothing := by
  have hfirst : start loneGraph = .ok { graph := loneGraph } := by decide +kernel
  exact ⟨_, hfirst, (allOrNothing_iff hfirst).2.mpr ⟨[_], [], rfl, rfl, rfl⟩⟩

/-- **Undoing that meets a fault and is not undone**, after the one node of a
graph was removed that leaves out the list of its edges. -/
theorem undo_edgelessGraph :
    ∃ first, start edgelessGraph = .ok first
      ∧ (first.run [.deleteNode (.str "a")]).selection = .none
      ∧ ((first.run [.deleteNode (.str "a")]).step .undo).2 = .error .missingField
      ∧ ((first.run [.deleteNode (.str "a")]).step .undo).1
        ≠ first.run [.deleteNode (.str "a")] := by
  refine ⟨{ graph := edgelessGraph }, ?_, ?_, ?_, ?_⟩ <;> decide +kernel

end CallFlow.Session

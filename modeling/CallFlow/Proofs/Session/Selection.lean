import CallFlow.Proofs.Session.Edits

/-!
# What becomes of the selection

A step that selects nothing itself keeps what is selected or drops it
(`Deselects`). It keeps it only if it has made sure of it, which is done in two
ways: an edge or a node that was removed is not the one selected, or what is
selected is found among the ids that the graph shows. Other edits keep it
without a look.

Looking for an id among those of a graph meets a fault in two cases, if the
graph does not state its lists, and if the id is a sequence or an object. Where
ids are texts the first is left, and what a step removes from leaves a graph
that states its lists. So a step that meets a fault has done nothing by then,
unless it goes back to a graph from before (`step_of_error`).
-/

namespace CallFlow

namespace Selection

/-- Whether what is selected has a text for an id. -/
def isNamed : Selection → Bool
  | .none => true
  | .node id => id.isText
  | .edge id => id.isText

/-- A node that is selected is one of some ids. -/
def NodeAmong (ids : List String) : Selection → Prop
  | .node id => ∃ name ∈ ids, id = .str name
  | _ => True

/-- An edge that is selected is one of some ids. -/
def EdgeAmong (ids : List String) : Selection → Prop
  | .edge id => ∃ name ∈ ids, id = .str name
  | _ => True

end Selection

theorem Value.agrees_self_of_isText {id : Value} (h : id.isText = true) : id.agrees id = true := by
  obtain ⟨name, rfl⟩ := Value.eq_str_of_isText h
  simp [agrees, saysSame, isUndefined, number?]

namespace Session

/-! ## The two ids

That a selection is a node or an edge or nothing says the same as two ids would of
which each is dropped by itself: dropping the one leaves the other as it is.
-/

section Ids

variable (s : Session) (id : Value) {ids : List String} {found : Bool}

theorem ids_forgetNode : (s.forgetNode id).selection.ids
    = (if s.selection.nodeId.agrees id then .null else s.selection.nodeId, s.selection.edgeId) := by
  obtain ⟨graph, selection, history⟩ := s
  cases selection with
  | node selected =>
    show (if selected.agrees id then (⟨graph, .none, history⟩ : Session)
      else ⟨graph, .node selected, history⟩).selection.ids = (if selected.agrees id then _ else _, _)
    split <;> rfl
  | none | edge => exact congrArg (fun node => (node, _)) (ite_self _).symm

theorem ids_forgetEdge : (s.forgetEdge id).selection.ids
    = (s.selection.nodeId, if s.selection.edgeId.agrees id then .null else s.selection.edgeId) := by
  obtain ⟨graph, selection, history⟩ := s
  cases selection with
  | edge selected =>
    show (if selected.agrees id then (⟨graph, .none, history⟩ : Session)
      else ⟨graph, .edge selected, history⟩).selection.ids = (_, if selected.agrees id then _ else _)
    split <;> rfl
  | none | node => exact congrArg (fun edge => (_, edge)) (ite_self _).symm

theorem ids_keepNodeAmong (h : s.selection.nodeId.isIdIn ids = .ok found) :
    (s.keepNodeAmong ids).1.selection.ids
      = (if found then s.selection.nodeId else .null, s.selection.edgeId) := by
  obtain ⟨graph, selection, history⟩ := s
  cases selection with
  | node selected =>
    have hselected : selected.isIdIn ids = .ok found := h
    rw [keepNodeAmong]
    dsimp only
    rw [hselected]
    cases found <;> rfl
  | none | edge => cases found <;> rfl

theorem ids_keepEdgeAmong (h : s.selection.edgeId.isIdIn ids = .ok found) :
    (s.keepEdgeAmong ids).1.selection.ids
      = (s.selection.nodeId, if found then s.selection.edgeId else .null) := by
  obtain ⟨graph, selection, history⟩ := s
  cases selection with
  | edge selected =>
    have hselected : selected.isIdIn ids = .ok found := h
    rw [keepEdgeAmong]
    dsimp only
    rw [hselected]
    cases found <;> rfl
  | none | node => cases found <;> rfl

end Ids

/-- **What is done to a selection that is seen to**: it is dropped, or it stays
and is as it has to be for that. -/
def Deselects (stays : Selection → Prop) (s s' : Session) : Prop :=
  s' = { s with selection := .none } ∨ s' = s ∧ stays s.selection

namespace Deselects

variable {stays stays' : Selection → Prop} {s s' s'' : Session}

theorem trans (h : Deselects stays s s') (h' : Deselects stays' s' s'') :
    Deselects (fun selection => stays selection ∧ stays' selection) s s'' := by
  rcases h with rfl | ⟨rfl, hstays⟩
  · rcases h' with rfl | ⟨rfl, _⟩ <;> exact .inl rfl
  · exact h'.imp_right fun ⟨heq, hstays'⟩ => ⟨heq, hstays, hstays'⟩

theorem isNamed (h : Deselects stays s s') (hs : s.selection.isNamed = true) :
    s'.selection.isNamed = true := by
  rcases h with rfl | ⟨rfl, _⟩
  · rfl
  · exact hs

end Deselects

/-! ## Dropping what is lost -/

section Dropping

variable (s : Session)

/-- An edge that stays selected is not the one that was removed. -/
theorem deselects_forgetEdge (id : Value) :
    Deselects (fun selection => id.isText = true → selection ≠ .edge id) s (s.forgetEdge id) := by
  rw [forgetEdge]
  split
  next selected hselected =>
    split
    next => exact .inl rfl
    next hagrees =>
      refine .inr ⟨rfl, fun htext heq => hagrees ?_⟩
      obtain rfl : selected = id := Selection.edge.inj (hselected.symm.trans heq)
      exact Value.agrees_self_of_isText htext
  next hnone => exact .inr ⟨rfl, fun _ heq => hnone id heq⟩

/-- A node that stays selected is not the one that was removed. -/
theorem deselects_forgetNode (id : Value) :
    Deselects (fun selection => id.isText = true → selection ≠ .node id) s (s.forgetNode id) := by
  rw [forgetNode]
  split
  next selected hselected =>
    split
    next => exact .inl rfl
    next hagrees =>
      refine .inr ⟨rfl, fun htext heq => hagrees ?_⟩
      obtain rfl : selected = id := Selection.node.inj (hselected.symm.trans heq)
      exact Value.agrees_self_of_isText htext
  next hnone => exact .inr ⟨rfl, fun _ heq => hnone id heq⟩

variable {s} {ids : List String}

/-- An edge that is among the ids it is looked for in is not dropped. -/
theorem keepEdgeAmong_of_edgeAmong (h : s.selection.EdgeAmong ids) :
    s.keepEdgeAmong ids = (s, .ok .null) := by
  cases hselection : s.selection with
  | edge id =>
    rw [hselection] at h
    obtain ⟨name, hmem, rfl⟩ := h
    simp [keepEdgeAmong, hselection, Value.isIdIn, hmem]
  | _ => rw [keepEdgeAmong, hselection]

/-- A node that is among the ids it is looked for in is not dropped. -/
theorem keepNodeAmong_of_nodeAmong (h : s.selection.NodeAmong ids) :
    s.keepNodeAmong ids = (s, .ok .null) := by
  cases hselection : s.selection with
  | node id =>
    rw [hselection] at h
    obtain ⟨name, hmem, rfl⟩ := h
    simp [keepNodeAmong, hselection, Value.isIdIn, hmem]
  | _ => rw [keepNodeAmong, hselection]

variable (hs : s.selection.isNamed = true)

include hs

/-- An edge that stays selected is among the ids it was looked for in. -/
theorem keepEdgeAmong_of_isNamed (ids : List String) :
    (s.keepEdgeAmong ids).2 = .ok .null
      ∧ Deselects (Selection.EdgeAmong ids) s (s.keepEdgeAmong ids).1 := by
  by_cases hamong : s.selection.EdgeAmong ids
  · rw [keepEdgeAmong_of_edgeAmong hamong]
    exact ⟨rfl, .inr ⟨rfl, hamong⟩⟩
  · cases hselection : s.selection with
    | edge id =>
      rw [hselection] at hs hamong
      obtain ⟨name, rfl⟩ := Value.eq_str_of_isText hs
      have hmem : name ∉ ids := fun hmem => hamong ⟨name, hmem, rfl⟩
      have hdropped : s.keepEdgeAmong ids = ({ s with selection := .none }, .ok .null) := by
        simp [keepEdgeAmong, hselection, Value.isIdIn, hmem]
      rw [hdropped]
      exact ⟨rfl, .inl rfl⟩
    | _ =>
      rw [hselection] at hamong
      exact absurd trivial hamong

/-- A node that stays selected is among the ids it was looked for in. -/
theorem keepNodeAmong_of_isNamed (ids : List String) :
    (s.keepNodeAmong ids).2 = .ok .null
      ∧ Deselects (Selection.NodeAmong ids) s (s.keepNodeAmong ids).1 := by
  by_cases hamong : s.selection.NodeAmong ids
  · rw [keepNodeAmong_of_nodeAmong hamong]
    exact ⟨rfl, .inr ⟨rfl, hamong⟩⟩
  · cases hselection : s.selection with
    | node id =>
      rw [hselection] at hs hamong
      obtain ⟨name, rfl⟩ := Value.eq_str_of_isText hs
      have hmem : name ∉ ids := fun hmem => hamong ⟨name, hmem, rfl⟩
      have hdropped : s.keepNodeAmong ids = ({ s with selection := .none }, .ok .null) := by
        simp [keepNodeAmong, hselection, Value.isIdIn, hmem]
      rw [hdropped]
      exact ⟨rfl, .inl rfl⟩
    | _ =>
      rw [hselection] at hamong
      exact absurd trivial hamong

end Dropping

/-! ## Reading the ids off a graph -/

/-- The ids under a key are those of what is listed there. -/
theorem idsUnder_eq (s : Session) (key : String) :
    s.idsUnder key = listedUnder s.graph key >>= elementIds := by
  rw [idsUnder, listedUnder]
  cases s.graph.object with
  | error fault => rfl
  | ok fields =>
    rw [Outcome.ok_bind, Outcome.ok_bind]
    cases Fields.get? fields key <;> rfl

theorem idsUnder_of_isListed {s : Session} (h : IsListed s.graph) :
    s.idsUnder "nodes" = .ok (nodeIds s.graph) ∧ s.idsUnder "edges" = .ok (edgeIds s.graph) := by
  obtain ⟨nodes, edges, hstates⟩ := h
  rw [idsUnder_eq, idsUnder_eq, hstates.nodes, hstates.edges, hstates.nodeIds_eq,
    hstates.edgeIds_eq]
  exact ⟨elementIds_map_obj nodes, elementIds_map_obj edges⟩

/-- What has ids are objects. -/
theorem exists_map_obj_of_elementIds {values : List Value} {ids : List String}
    (h : elementIds values = .ok ids) : ∃ fs : List Fields, values = fs.map Value.obj := by
  have hall : List.Forall₂ (fun id value => ∃ fields, value = .obj fields ∧ idOf fields = id)
      ids values := by
    refine ((Outcome.mapM_eq_ok.mp h).imp fun value id hid => ?_).flip
    obtain ⟨fields, hfields, hid⟩ := Outcome.bind_eq_ok.mp hid
    cases value with
    | obj fields' =>
      obtain rfl := Except.ok.inj hfields
      exact ⟨fields', rfl, Except.ok.inj hid⟩
    | _ => cases hfields
  obtain ⟨fs, hvalues, _⟩ := exists_map_obj_of_forall₂ hall
  exact ⟨fs, hvalues⟩

/-- **A graph states its lists where its ids can be read**, if it has no other
keys. -/
theorem isListed_of_idsUnder {s : Session} {nodeIds edgeIds : List String}
    (hkeys : Revision.unchanged s.graph = .ok .kept) (hnodes : s.idsUnder "nodes" = .ok nodeIds)
    (hedges : s.idsUnder "edges" = .ok edgeIds) : IsListed s.graph := by
  rw [idsUnder_eq] at hnodes hedges
  obtain ⟨nodeValues, hnodeValues, hnodes⟩ := Outcome.bind_eq_ok.mp hnodes
  obtain ⟨edgeValues, hedgeValues, hedges⟩ := Outcome.bind_eq_ok.mp hedges
  obtain ⟨nodes, rfl⟩ := exists_map_obj_of_elementIds hnodes
  obtain ⟨edges, rfl⟩ := exists_map_obj_of_elementIds hedges
  exact ⟨nodes, edges, hnodeValues, hedgeValues, hkeys⟩

/-! ## Dropping what the graph has lost -/

section Sequence

variable {first : Result} {next : Session → Result}

theorem andThen_of_ok {value : Value} (h : first.2 = .ok value) :
    andThen first next = next first.1 := by
  obtain ⟨s, answer⟩ := first
  obtain rfl : answer = .ok value := h
  rfl

theorem andThen_of_error {fault : Fault} (h : first.2 = .error fault) :
    andThen first next = first := by
  obtain ⟨s, answer⟩ := first
  obtain rfl : answer = .error fault := h
  rfl

end Sequence

section Lost

variable {s : Session} (hs : s.selection.isNamed = true)

include hs

theorem dropLostEdge_of_isListed (h : IsListed s.graph) :
    s.dropLostEdge.2 = .ok .null
      ∧ Deselects (Selection.EdgeAmong (edgeIds s.graph)) s s.dropLostEdge.1 := by
  rw [dropLostEdge, (idsUnder_of_isListed h).2]
  exact keepEdgeAmong_of_isNamed hs _

/-- What is answered where the ids can be read, and what is left selected. -/
theorem dropLost_of_idsUnder {nodeIds edgeIds : List String}
    (hnodes : s.idsUnder "nodes" = .ok nodeIds) (hedges : s.idsUnder "edges" = .ok edgeIds) :
    s.dropLost.2 = .ok .null
      ∧ Deselects (fun selection => selection.NodeAmong nodeIds ∧ selection.EdgeAmong edgeIds) s
          s.dropLost.1 := by
  obtain ⟨hanswer, hnode⟩ := keepNodeAmong_of_isNamed hs nodeIds
  have hdrop : s.dropLost = (s.keepNodeAmong nodeIds).1.keepEdgeAmong edgeIds := by
    rw [dropLost, hnodes, hedges]
    exact andThen_of_ok hanswer
  obtain ⟨hanswer', hedge⟩ := keepEdgeAmong_of_isNamed (hnode.isNamed hs) edgeIds
  rw [hdrop]
  exact ⟨hanswer', hnode.trans hedge⟩

theorem dropLost_of_isListed (h : IsListed s.graph) :
    s.dropLost.2 = .ok .null
      ∧ Deselects (fun selection => selection.NodeAmong (nodeIds s.graph)
          ∧ selection.EdgeAmong (edgeIds s.graph)) s s.dropLost.1 :=
  dropLost_of_idsUnder hs (idsUnder_of_isListed h).1 (idsUnder_of_isListed h).2

end Lost

/-- Looking for what is lost reads the ids of the graph, or it meets a fault and
does nothing. -/
theorem dropLost_cases (s : Session) :
    (∃ nodeIds edgeIds, s.idsUnder "nodes" = .ok nodeIds ∧ s.idsUnder "edges" = .ok edgeIds)
      ∨ ∃ fault, s.dropLost = (s, .error fault) := by
  rw [dropLost]
  cases s.idsUnder "nodes" with
  | error fault => exact .inr ⟨fault, rfl⟩
  | ok nodeIds =>
    cases s.idsUnder "edges" with
    | error fault => exact .inr ⟨fault, rfl⟩
    | ok edgeIds => exact .inl ⟨nodeIds, edgeIds, rfl, rfl⟩

/-- **It meets a fault in a graph that does not state its lists.** -/
theorem dropLost_of_not_isListed {s : Session}
    (hkeys : Revision.unchanged s.graph = .ok .kept) (h : ¬ IsListed s.graph) :
    ∃ fault, s.dropLost = (s, .error fault) := by
  rcases s.dropLost_cases with ⟨nodeIds, edgeIds, hnodes, hedges⟩ | hfault
  · exact absurd (isListed_of_idsUnder hkeys hnodes hedges) h
  · exact hfault

/-- It meets a fault in no other graph. -/
theorem dropLost_of_error {s : Session} {fault : Fault} (hs : s.selection.isNamed = true)
    (h : s.dropLost.2 = .error fault) : s.dropLost.1 = s ∧ ¬ IsListed s.graph := by
  refine ⟨?_, fun hlisted => ?_⟩
  · rcases s.dropLost_cases with ⟨nodeIds, edgeIds, hnodes, hedges⟩ | ⟨fault', hfault⟩
    · rw [(dropLost_of_idsUnder hs hnodes hedges).1] at h
      cases h
    · rw [hfault]
  · rw [(dropLost_of_isListed hs hlisted).1] at h
    cases h

/-! ## Undoing -/

section Undoing

variable {s : Session} {graph : Value} {history : List Value}
  (hhistory : s.history = graph :: history)

include hhistory

theorem undo_of_history : s.undo = andThen
    (dropLost { s with graph := graph, history := history }) fun s => (s, .ok (.bool true)) := by
  rw [undo, hhistory]

/-- **Undoing meets no fault where the graph it goes back to states its
lists**, and whatever stays selected is there. -/
theorem undo_of_isListed (hs : s.selection.isNamed = true) (h : IsListed graph) :
    s.undo.2 = .ok (.bool true)
      ∧ Deselects (fun selection => selection.NodeAmong (nodeIds graph)
          ∧ selection.EdgeAmong (edgeIds graph))
        { s with graph := graph, history := history } s.undo.1 := by
  obtain ⟨hanswer, hdrop⟩ :=
    dropLost_of_isListed (s := { s with graph := graph, history := history }) hs h
  rw [undo_of_history hhistory, andThen_of_ok hanswer]
  exact ⟨rfl, hdrop⟩

/-- **Undoing meets a fault where the graph it goes back to does not state its
lists**, and by then it shows that graph. -/
theorem undo_of_not_isListed (hkeys : Revision.unchanged graph = .ok .kept)
    (h : ¬ IsListed graph) :
    ∃ fault, s.undo = ({ s with graph := graph, history := history }, .error fault) := by
  obtain ⟨fault, hdrop⟩ :=
    dropLost_of_not_isListed (s := { s with graph := graph, history := history }) hkeys h
  refine ⟨fault, ?_⟩
  rw [undo_of_history hhistory, hdrop]
  rfl

/-- Where undoing meets a fault the graph it goes back to does not state its
lists, and by then it shows that graph. -/
theorem undo_of_error {fault : Fault} (hs : s.selection.isNamed = true)
    (h : s.undo.2 = .error fault) :
    s.undo.1 = { s with graph := graph, history := history } ∧ ¬ IsListed graph := by
  rw [undo_of_history hhistory] at h ⊢
  cases hanswer : (dropLost { s with graph := graph, history := history }).2 with
  | ok value =>
    rw [andThen_of_ok hanswer] at h
    cases h
  | error fault' =>
    rw [andThen_of_error hanswer]
    exact dropLost_of_error hs hanswer

end Undoing

end Session

/-! ## The steps -/

/-- The selections a step spares when it has seen to them, in the graph there
is then: nothing that it removed itself, and where a node was removed no edge
either that the graph has lost. -/
def Step.spares (graph : Value) : Step → Selection → Prop
  | .deleteEdge id, selection => id.isText = true → selection ≠ .edge id
  | .deleteNode id, selection =>
    (id.isText = true → selection ≠ .node id) ∧ selection.EdgeAmong (edgeIds graph)
  | _, _ => True

/-- Whether a step selects nothing but what has a text for an id. -/
def Step.selectsNamed : Step → Bool
  | .selectNode id => id = .null || id.isText
  | .selectEdge id => id = .null || id.isText
  | _ => true

namespace Session

section Steps

variable {s : Session} {t : Step} {revision : Revision} (hs : s.selection.isNamed = true)

include hs

/-- **Seeing to the selection after an edit meets no fault.** -/
theorem tidy_of_edit (h : t.edit? s.graph = some (.ok revision)) :
    ((s.commit revision).tidy t).2 = .ok .null
      ∧ Deselects (t.spares (revision.apply s.graph)) (s.commit revision)
          ((s.commit revision).tidy t).1 := by
  cases t with
  | deleteEdge id => exact ⟨rfl, deselects_forgetEdge _ id⟩
  | deleteNode id =>
    have hnode := deselects_forgetNode (s.commit revision) id
    have hgraph : ((s.commit revision).forgetNode id).graph = revision.apply s.graph :=
      (sameGraphs_forgetNode _ id).1.trans (graph_commit s revision)
    obtain ⟨hanswer, hedge⟩ := dropLostEdge_of_isListed
      (hnode.isNamed (selection_commit s revision ▸ hs))
      (hgraph ▸ isListed_deleteNode (Option.some.inj h))
    rw [hgraph] at hedge
    exact ⟨hanswer, hnode.trans hedge⟩
  | _ => exact ⟨rfl, .inr ⟨rfl, trivial⟩⟩

/-- **What is left selected after an edit.** -/
theorem deselects_step_of_edit (h : t.edit? s.graph = some (.ok revision)) :
    Deselects (t.spares (revision.apply s.graph)) (s.commit revision) (s.step t).1 := by
  rw [(step_of_edit h).1]
  exact (tidy_of_edit hs h).2

/-- **A step that meets a fault leaves everything as it was**, unless it goes
back to a graph that does not state its lists. -/
theorem step_of_error {fault : Fault} (h : (s.step t).2 = .error fault) :
    (s.step t).1 = s
      ∨ t = .undo ∧ ∃ graph history, s.history = graph :: history ∧ ¬ IsListed graph
        ∧ (s.step t).1 = { s with graph := graph, history := history } := by
  cases s.comesTo t with
  | selectNode | selectEdge | clearSelection => cases h
  | save request => exact .inl rfl
  | rejected _ hstep | idle _ hstep => exact .inl (by rw [hstep])
  | edited hedit =>
    have hfault := (step_of_edit hedit).2 fault h
    rw [(tidy_of_edit hs hedit).1] at hfault
    cases hfault
  | returned hhistory =>
    obtain ⟨hafter, hlisted⟩ := undo_of_error hhistory hs h
    exact .inr ⟨rfl, _, _, hhistory, hlisted, hafter⟩

/-- **Ids of what is selected stay texts.** -/
theorem isNamed_step (hlisted : s.Listed) (ht : t.selectsNamed = true) :
    (s.step t).1.selection.isNamed = true := by
  cases s.comesTo t with
  | selectNode id | selectEdge id =>
    rcases (Bool.or_eq_true _ _).mp ht with hnull | htext
    · obtain rfl := of_decide_eq_true hnull
      rfl
    · obtain ⟨name, rfl⟩ := Value.eq_str_of_isText htext
      rfl
  | clearSelection => rfl
  | save request => exact hs
  | rejected _ hstep | idle _ hstep =>
    rw [hstep]
    exact hs
  | edited hedit =>
    exact (deselects_step_of_edit hs hedit).isNamed (selection_commit s _ ▸ hs)
  | returned hhistory =>
    exact (undo_of_isListed hhistory hs (hlisted.isListed_of_history hhistory)).2.isNamed hs

end Steps

/-- So they do in a run. -/
theorem isNamed_run {s : Session} (hs : s.selection.isNamed = true) (hlisted : s.Listed)
    {steps : List Step} (hsteps : steps.all Step.selectsNamed = true) :
    (s.run steps).selection.isNamed = true := by
  induction steps generalizing s with
  | nil => exact hs
  | cons t rest ih =>
    rw [List.all_cons, Bool.and_eq_true] at hsteps
    exact ih (isNamed_step hs hlisted hsteps.1) (hlisted.step t) hsteps.2

end Session

end CallFlow

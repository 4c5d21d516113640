import CallFlow.Layout.Arrange
import CallFlow.Proofs.Config.Saving
import CallFlow.Proofs.Graph.Consistency
import CallFlow.Proofs.Node.Dependence

/-!
# What saving does not notice

A graph is saved from the data of its nodes and from its edges. The list of
transitions in a node's data is a copy of the edges and is not read, and
where places are not kept neither is the place of a node. A node with
another list (`Relisted`), or at another place, is therefore saved as it
was; and so is a graph of such nodes.

Arranging a graph moves nodes and does nothing else (`arrange_eq_ok`).
-/

namespace CallFlow

/-! ## One node -/

section Node

variable {edges : List Fields} {keepPositions : Bool} {node node' : Fields}

/-- **What saving a node reads**: the id it is saved under, the data as far
as they are saved, what an editor keeps about it, and, where places are
kept, its place. -/
theorem saveNode_congr (hid : savedId node' (dataOf node') = savedId node (dataOf node))
    (hdata : SavedAlike (dataOf node) (dataOf node'))
    (hmetadata : Fields.get (dataOf node') "_metadata" = Fields.get (dataOf node) "_metadata")
    (hplace : keepPositions = true → canvasPosition node' = canvasPosition node) :
    saveNode edges keepPositions node' = saveNode edges keepPositions node := by
  have hput : ∀ out, putMetadata keepPositions node' (dataOf node') out
      = putMetadata keepPositions node (dataOf node) out := by
    intro out
    rw [putMetadata, putMetadata, hmetadata]
    split
    next hkeep => rw [hplace hkeep]
    next => rfl
  have hboth : ∀ n : Fields, saveNode edges keepPositions n = (do
      return putMetadata keepPositions n (dataOf n) (← emitNode (dataOf n)
        (.str (savedId n (dataOf n)))
        (.list ((outgoing edges (savedId n (dataOf n))).map Transition.toItem)))) := fun _ => rfl
  rw [hboth, hboth, hid, hdata.emitNode_eq]
  simp only [hput]

/-- **A node with another list of transitions is saved as it was.** -/
theorem Relisted.saveNode_eq (h : Relisted node node') :
    saveNode edges keepPositions node' = saveNode edges keepPositions node := by
  refine saveNode_congr h.savedId_eq ?_ ?_ fun _ => ?_
  all_goals rcases h with rfl | ⟨transitions, rfl⟩
  · exact .refl _
  · rw [dataOf_withTransitions]
    exact savedAlike_put _ (by decide) (by decide) (by decide) _
  · rfl
  · rw [dataOf_withTransitions, Fields.get_put_of_ne _ _ (by simp)]
  · rfl
  · rw [canvasPosition, withTransitions, Fields.get_put_of_ne _ _ (by simp), canvasPosition]

theorem get_moveTo (node : Fields) (place : Value) {key : String} (hkey : key ≠ "position") :
    Fields.get (moveTo node place) key = Fields.get node key :=
  Fields.get_put_of_ne node place (by simpa using hkey.symm)

/-- Where places are not kept, a node that is moved is saved as it was. -/
theorem saveNode_moveTo (edges : List Fields) (node : Fields) (place : Value) :
    saveNode edges false (moveTo node place) = saveNode edges false node := by
  have hdata : dataOf (moveTo node place) = dataOf node := by
    rw [dataOf, get_moveTo node place (by decide)]
  refine saveNode_congr ?_ ?_ (by rw [hdata]) fun hkeep => absurd hkeep Bool.false_ne_true
  · rw [hdata, savedId, get_moveTo node place (by decide), savedId]
  · rw [hdata]
    exact .refl _

end Node

/-! ## A graph -/

theorem saveNode_congr_edges {edges edges' : List Fields}
    (h : ∀ id, outgoing edges' id = outgoing edges id) (keepPositions : Bool) (node : Fields) :
    saveNode edges' keepPositions node = saveNode edges keepPositions node := by
  unfold saveNode
  simp only [h]

/-- **What saving a graph document reads**: the objects among its nodes, one
by one, and the transitions its edges say, node by node. -/
theorem saveGraph_congr_lists {settings : Settings} {request : SaveRequest} {graph graph' : Value}
    {ns ns' es es' : List Value} (hns : nodesOf graph = .ok ns) (hns' : nodesOf graph' = .ok ns')
    (hes : edgesOf graph = .ok es) (hes' : edgesOf graph' = .ok es')
    (hedges : ∀ id, outgoing (objectsAmong es') id = outgoing (objectsAmong es) id)
    (hnodes : List.Forall₂ (fun node node' =>
        saveNode (objectsAmong es) request.keepPositions node'
          = saveNode (objectsAmong es) request.keepPositions node)
      (objectsAmong ns) (objectsAmong ns')) :
    saveGraph settings request graph' = saveGraph settings request graph := by
  have hsaved : saveNodes graph' request.keepPositions
      = saveNodes graph request.keepPositions := by
    rw [saveNodes, saveNodes, hns, hns', hes, hes']
    simp only [Outcome.ok_bind]
    rw [← Outcome.mapM_eq_mapM_of_forall₂ hnodes]
    congr 1
    funext node
    exact saveNode_congr_edges hedges _ node
  rw [saveGraph, saveGraph, hsaved]

/-- **A graph is saved as another if its nodes are saved as the other's.** -/
theorem saveGraph_congr {nodes nodes' edges : List Fields} {settings : Settings}
    {request : SaveRequest}
    (h : List.Forall₂ (fun node node' => saveNode edges request.keepPositions node'
      = saveNode edges request.keepPositions node) nodes nodes') :
    saveGraph settings request (Graph.ofObjects nodes' edges).toValue
      = saveGraph settings request (Graph.ofObjects nodes edges).toValue := by
  refine saveGraph_congr_lists (nodesOf_toValue _) (nodesOf_toValue _) (edgesOf_toValue _)
    (edgesOf_toValue _) (fun _ => rfl) ?_
  simpa only [Graph.ofObjects, objectsAmong_map_obj] using h

/-! ## Arranging -/

/-- Whether a node is where it was or was moved to a point. -/
def MovedTo (node node' : Fields) : Prop :=
  node' = node ∨ ∃ p : Point Float, node' = moveTo node p.toValue

theorem placeOf_eq_ok {position value : Value} (h : placeOf position = .ok value) :
    ∃ p : Point Float, value = p.toValue := by
  obtain ⟨x, hx, h⟩ := Outcome.bind_eq_ok.mp h
  obtain ⟨y, hy, h⟩ := Outcome.bind_eq_ok.mp h
  obtain rfl := Except.ok.inj h
  cases position with
  | obj fields =>
    dsimp only at hx hy
    split at hx
    · split at hy
      · obtain ⟨x, _, rfl⟩ := Outcome.map_eq_ok.mp hx
        obtain ⟨y, _, rfl⟩ := Outcome.map_eq_ok.mp hy
        exact ⟨⟨x, y⟩, rfl⟩
      · cases hy
    · cases hx
  | _ => cases hx

theorem rearrange_eq_ok {places node : Fields} {value : Value}
    (h : rearrange places (.obj node) = .ok value) :
    ∃ node', value = .obj node' ∧ MovedTo node node' := by
  rw [rearrange, Value.object, Outcome.ok_bind] at h
  split at h
  · exact ⟨node, (Except.ok.inj h).symm, .inl rfl⟩
  · obtain ⟨place, hplace, h⟩ := Outcome.bind_eq_ok.mp h
    obtain ⟨p, rfl⟩ := placeOf_eq_ok hplace
    exact ⟨_, (Except.ok.inj h).symm, .inr ⟨p, rfl⟩⟩

/-- **Arranging a graph moves nodes and does nothing else.** -/
theorem arrange_eq_ok {options : LayoutOptions} {placed : Option Value} {search : Rank.Search}
    {nodes edges : List Fields} {g : Graph}
    (h : arrange options placed (Graph.ofObjects nodes edges).toValue search = .ok g) :
    ∃ nodes', g = Graph.ofObjects nodes' edges ∧ List.Forall₂ MovedTo nodes nodes' := by
  -- wherever the places come from, what is done with them is the same
  have hmoved : ∀ places, ((nodes.map Value.obj).mapM (rearrange places) >>=
      fun values => pure (f := Outcome) (Graph.mk values (edges.map Value.obj))) = .ok g →
      ∃ nodes', g = Graph.ofObjects nodes' edges ∧ List.Forall₂ MovedTo nodes nodes' := by
    intro places h
    obtain ⟨values, hvalues, h⟩ := Outcome.bind_eq_ok.mp h
    obtain rfl := Except.ok.inj h
    rw [List.mapM_map] at hvalues
    obtain ⟨nodes', rfl, hall⟩ := exists_map_obj_of_forall₂
      ((Outcome.mapM_eq_ok.mp hvalues).imp fun _ _ => rearrange_eq_ok)
    exact ⟨nodes', rfl, hall⟩
  rw [arrange, nodesOf_toValue, edgesOf_toValue] at h
  simp only [Graph.ofObjects, Outcome.ok_bind] at h
  split at h
  · obtain ⟨elements, _, h⟩ := Outcome.bind_eq_ok.mp h
    obtain ⟨found, _, h⟩ := Outcome.bind_eq_ok.mp h
    exact hmoved _ h
  · obtain ⟨found, _, h⟩ := Outcome.bind_eq_ok.mp h
    exact hmoved _ h

end CallFlow

import CallFlow.Proofs.Config.Loading

/-!
# What is saved

A node of the graph is saved under its id, with its kind, and with the
transitions the edges from it say – those, and not the copy in its data.
Where places are kept, the place stored with it is the one on the canvas.

The section that is saved has one entry for each node, in their order
(`saveGraph_eq_ok`), and it is the section that is found in the document
afterwards (`workflowSection_saveGraph`).
-/

namespace CallFlow

/-! ## One node -/

section SaveNode

variable {edges : List Fields} {keepPositions : Bool} {node out : Fields}

/-- What an editor keeps about a node is written under one key. -/
theorem get?_putMetadata (keepPositions : Bool) (node data out : Fields) {key : Key}
    (hkey : key ≠ "_metadata") :
    Fields.get? (putMetadata keepPositions node data out) key = Fields.get? out key := by
  have hne : (Key.text "_metadata").same key = false := by
    by_contra h
    exact hkey (Key.text_same_iff.mp (by simpa using h))
  rw [putMetadata]
  split
  · exact Fields.get?_put_of_ne _ _ hne
  · split
    · rfl
    · exact Fields.get?_put_of_ne _ _ hne

/-- **A node is saved by its plan**, with what an editor keeps about it. -/
theorem saveNode_eq_ok (h : saveNode edges keepPositions node = .ok out) :
    ∃ emitted, emitNode (dataOf node) (.str (savedId node (dataOf node)))
        (.list ((outgoing edges (savedId node (dataOf node))).map Transition.toItem)) = .ok emitted
      ∧ out = putMetadata keepPositions node (dataOf node) emitted := by
  obtain ⟨emitted, hemitted, h⟩ := Outcome.bind_eq_ok.mp h
  exact ⟨emitted, hemitted, (Except.ok.inj h).symm⟩

theorem savedId_of_idOf {node : Fields} (hid : idOf node ≠ "") :
    savedId node (dataOf node) = idOf node := by
  have hstated : (Fields.get node "id").truthy = true := by
    by_contra hblank
    exact hid (Value.idText_eq_empty_iff.mpr (by simpa using hblank))
  rw [savedId, Value.orElse_of_truthy hstated, idOf]

variable (h : saveNode edges keepPositions node = .ok out)

include h

theorem get_id_saveNode : Fields.get out "id" = .str (savedId node (dataOf node)) := by
  obtain ⟨emitted, hemitted, rfl⟩ := saveNode_eq_ok h
  rw [Fields.get, get?_putMetadata _ _ _ _ (by decide),
    get?_emitNode_head hemitted (by decide) (by decide), get?_nodeHead_id, Option.getD_some]

theorem idOf_saveNode : idOf out = savedId node (dataOf node) := by
  rw [idOf, get_id_saveNode h, Value.idText_str]

theorem get_type_saveNode : Fields.get out "type" = kindOf (dataOf node) := by
  obtain ⟨emitted, hemitted, rfl⟩ := saveNode_eq_ok h
  rw [Fields.get, get?_putMetadata _ _ _ _ (by decide),
    get?_emitNode_head hemitted (by decide) (by decide), get?_nodeHead_type, Option.getD_some]

theorem kindOf_saveNode : kindOf out = kindOf (dataOf node) := by
  rw [kindOf, get_type_saveNode h]
  exact Value.orElse_orElse _ _

/-- What is read as the transitions of a saved node. -/
theorem get_transitions_saveNode :
    Fields.get out "transitions"
      = if keepsTransitions (dataOf node)
            && !(outgoing edges (savedId node (dataOf node))).isEmpty then
          .list ((outgoing edges (savedId node (dataOf node))).map Transition.toItem)
        else .null := by
  obtain ⟨emitted, hemitted, rfl⟩ := saveNode_eq_ok h
  rw [Fields.get, get?_putMetadata _ _ _ _ (by decide), get?_emitNode_transitions hemitted,
    Value.truthy, List.isEmpty_map]
  split <;> rfl

/-- **What a saved node lists is what the edges from the node say**, and
nothing where its kind goes on nowhere. -/
theorem transitionItems_saveNode :
    transitionItems out
      = if keepsTransitions (dataOf node) then
          (outgoing edges (savedId node (dataOf node))).map Transition.toItem
        else [] := by
  rw [transitionItems, get_transitions_saveNode h]
  cases keepsTransitions (dataOf node) with
  | false => rfl
  | true => cases outgoing edges (savedId node (dataOf node)) <;> rfl

/-- **A saved node states the transitions the edges say.** -/
theorem statedTransitions_saveNode :
    statedTransitions out
      = if keepsTransitions (dataOf node) then outgoing edges (savedId node (dataOf node))
        else [] := by
  rw [statedTransitions, transitionItems_saveNode h]
  split
  · refine map_ofItem_toItem fun t ht => ?_
    obtain ⟨edge, _, rfl⟩ := List.mem_map.mp ht
    exact Transition.settled_ofEdge edge
  · rfl

theorem transitionItems_eq_map :
    transitionItems out = (statedTransitions out).map Transition.toItem := by
  rw [transitionItems_saveNode h, statedTransitions_saveNode h]
  split <;> rfl

theorem exists_ofEdge_of_mem_statedTransitions {t : Transition} (ht : t ∈ statedTransitions out) :
    ∃ edge ∈ edges, t = Transition.ofEdge edge := by
  rw [statedTransitions_saveNode h] at ht
  split at ht
  · obtain ⟨edge, hedge, rfl⟩ := List.mem_map.mp ht
    exact ⟨edge, List.mem_of_mem_filter hedge, rfl⟩
  · exact absurd ht List.not_mem_nil

/-- No field of a saved node is there twice. -/
theorem distinct_saveNode : Fields.distinct out = true := by
  obtain ⟨emitted, hemitted, rfl⟩ := saveNode_eq_ok h
  have hd := distinct_emitNode hemitted
  rw [putMetadata]
  split
  · exact Fields.distinct_put hd _ _
  · split
    · exact hd
    · exact Fields.distinct_put hd _ _

/-- **Where places are kept, the place on the canvas is stored.** -/
theorem storedPosition_saveNode (hkeep : keepPositions = true) :
    storedPosition out = canvasPosition node := by
  obtain ⟨emitted, hemitted, rfl⟩ := saveNode_eq_ok h
  rw [putMetadata, if_pos hkeep, storedPosition, Fields.get_put_self, Value.fieldsOrNone,
    Fields.get_put_self]
  rfl

end SaveNode

/-! ## The section -/

/-- Whether edits are of settings: they say nothing of a section of its
own. -/
def editsSettings : Value → Bool
  | .null => true
  | .obj fields => !Fields.has fields sectionKey
  | _ => false

/-- Edits of settings have no section among their fields. -/
theorem get?_sectionKey_of_editsSettings {edits : Value} (h : editsSettings edits = true) :
    Fields.get? edits.fieldsOrNone sectionKey = none := by
  cases edits with
  | obj fields =>
    rw [editsSettings, Bool.not_eq_true', Fields.has, Option.isSome_eq_false_iff,
      Option.isNone_iff_eq_none] at h
    exact h
  | _ => rfl

theorem eq_fieldsOrNone_of_asFields {edits : Value} {changes : Fields}
    (hedits : editsSettings edits = true) (h : (edits.orElse (.obj [])).asFields = .ok changes) :
    changes = edits.fieldsOrNone := by
  cases edits with
  | null => exact (Except.ok.inj h).symm
  | obj fields => cases fields <;> exact (Except.ok.inj h).symm
  | _ => cases hedits

section SaveGraph

variable {settings : Settings} {request : SaveRequest} {graph document : Value}

/-- The objects among the nodes of a graph are saved one by one. -/
theorem saveNodes_eq_ok {keepPositions : Bool} {saved : List Fields}
    (h : saveNodes graph keepPositions = .ok saved) :
    ∃ nodes edges, nodesOf graph = .ok nodes ∧ edgesOf graph = .ok edges
      ∧ List.Forall₂ (fun node out => saveNode (objectsAmong edges) keepPositions node = .ok out)
        (objectsAmong nodes) saved := by
  obtain ⟨edges, hedges, h⟩ := Outcome.bind_eq_ok.mp h
  obtain ⟨nodes, hnodes, h⟩ := Outcome.bind_eq_ok.mp h
  exact ⟨nodes, edges, hnodes, hedges, Outcome.mapM_eq_ok.mp h⟩

/-- **What saving a graph comes to**: an entry for each node, under the
settings, in the place of the section saved before. -/
theorem saveGraph_eq_ok (h : saveGraph settings request graph = .ok document) :
    ∃ saved workflow, saveNodes graph request.keepPositions = .ok saved
      ∧ mergeSettings settings (workflowSection request.previous) (.list (saved.map Value.obj))
          request.edits = .ok workflow
      ∧ document = replaceSection request.previous
          (Fields.put workflow "nodes" (.list (saved.map Value.obj))) := by
  obtain ⟨saved, hsaved, h⟩ := Outcome.bind_eq_ok.mp h
  obtain ⟨workflow, hworkflow, h⟩ := Outcome.bind_eq_ok.mp h
  exact ⟨saved, workflow, hsaved, hworkflow, (Except.ok.inj h).symm⟩

/-- **The section that was saved is the section of the document.** -/
theorem workflowSection_saveGraph {saved : List Fields} {workflow : Fields}
    (hedits : editsSettings request.edits = true)
    (h : mergeSettings settings (workflowSection request.previous) (.list (saved.map Value.obj))
      request.edits = .ok workflow) :
    workflowSection (replaceSection request.previous
      (Fields.put workflow "nodes" (.list (saved.map Value.obj))))
      = Fields.put workflow "nodes" (.list (saved.map Value.obj)) := by
  obtain ⟨changes, start, hchanges, _, rfl⟩ := mergeSettings_eq_ok h
  refine workflowSection_replaceSection fun hbare => ?_
  have hnone : Fields.get? changes sectionKey = none := by
    rw [eq_fieldsOrNone_of_asFields hedits hchanges]
    exact get?_sectionKey_of_editsSettings hedits
  -- the key reads as in the document, where it is no section of its own
  rw [Fields.get_put_of_ne _ _ (by decide), Fields.get, get?_mergeSettings (by decide) hnone,
    ← Fields.get, workflowSection, hbare]
  exact hbare

/-- The entries of a section that was saved are the nodes that were. -/
theorem sectionNodes_saveGraph {saved : List Fields} {workflow : Fields} {document : Value}
    (h : workflowSection document = Fields.put workflow "nodes" (.list (saved.map Value.obj))) :
    sectionNodes document = .ok saved := by
  have hread : (Value.list (saved.map Value.obj)).elementsOrNone
      = .ok (saved.map Value.obj) := by
    cases saved <;> rfl
  rw [sectionNodes, h, Fields.get_put_self, hread, Outcome.ok_bind, objectsAmong_map_obj]
  rfl

end SaveGraph

/-! ## Saving without edits -/

theorem saveNodes_ofObjects (nodes edges : List Fields) (keepPositions : Bool) :
    saveNodes (Graph.ofObjects nodes edges).toValue keepPositions
      = nodes.mapM (saveNode edges keepPositions) := by
  rw [saveNodes, edgesOf_toValue, nodesOf_toValue]
  simp only [Graph.ofObjects, Outcome.ok_bind, objectsAmong_map_obj]

section Unedited

variable (settings : Settings) (config : Value) (saved : List Fields)

/-- The section of some nodes that are saved over a document without
edits. -/
def savedSection : Fields :=
  Fields.put
    (keptSettings (workflowSection config) (startOf settings (workflowSection config) saved))
    "nodes" (.list (saved.map Value.obj))

/-- The document some nodes are saved as, over a document and without
edits. -/
def savedDocument : Value := replaceSection config (savedSection settings config saved)

/-- **Without edits a graph is saved if its nodes are**: nothing else can
meet a fault. -/
theorem saveGraph_null (keepPositions : Bool) (nodes edges : List Fields) :
    saveGraph settings { previous := config, keepPositions := keepPositions }
        (Graph.ofObjects nodes edges).toValue
      = savedDocument settings config <$> nodes.mapM (saveNode edges keepPositions) := by
  rw [saveGraph, saveNodes_ofObjects]
  cases nodes.mapM (saveNode edges keepPositions) with
  | error fault => rfl
  | ok saved =>
    rw [Outcome.ok_bind]
    dsimp only
    rw [mergeSettings_null]
    rfl

theorem workflowSection_savedDocument :
    workflowSection (savedDocument settings config saved) = savedSection settings config saved :=
  @workflowSection_saveGraph settings { previous := config } saved _ rfl
    (mergeSettings_null settings _ saved)

theorem sectionNodes_savedDocument :
    sectionNodes (savedDocument settings config saved) = .ok saved :=
  sectionNodes_saveGraph (workflowSection_savedDocument settings config saved)

theorem initialNode_savedDocument :
    Fields.get (workflowSection (savedDocument settings config saved)) "initial_node"
      = startOf settings (workflowSection config) saved := by
  rw [workflowSection_savedDocument, savedSection, Fields.get_put_of_ne _ _ (by decide), Fields.get,
    get?_keptSettings, if_pos rfl, Option.getD_some]

variable {config} in
theorem object?_get_savedSection (h : wrappedSection? config = none) :
    (Fields.get (savedSection settings config saved) sectionKey).object? = none := by
  rw [savedSection, Fields.get_put_of_ne _ _ (by decide), Fields.get, get?_keptSettings,
    if_neg (by decide), if_neg (by decide), ← Fields.get, workflowSection, h]
  exact h

variable {config} in
/-- **A section that was saved is saved again as it is**, where the nodes
are. -/
theorem savedSection_savedDocument (hd : Fields.distinct (workflowSection config) = true) :
    savedSection settings (savedDocument settings config saved) saved
      = savedSection settings config saved := by
  have hread : ∀ k ∈ orderedKeys (workflowSection config),
      Fields.get (savedSection settings config saved) k
        = Fields.get (workflowSection config) k := by
    intro k hk
    have hother := of_decide_eq_true (List.mem_filter.mp hk).2
    rw [savedSection, Fields.get, Fields.get?_put,
      if_neg fun h => hother (by rw [Key.text_same_iff.mp h]; decide), get?_keptSettings,
      if_neg fun h => hother (by rw [h]; decide), if_neg fun h => hother (by rw [h]; decide),
      Fields.get]
  have hstart : startOf settings (savedSection settings config saved) saved
      = startOf settings (workflowSection config) saved := by
    have hnamed := initialNode_savedDocument settings config saved
    rw [workflowSection_savedDocument] at hnamed
    rw [startOf, hnamed]
    exact Value.orElse_orElse _ _
  have hkept : keptSettings (savedSection settings config saved)
        (startOf settings (workflowSection config) saved)
      = keptSettings (workflowSection config)
        (startOf settings (workflowSection config) saved) := by
    rw [keptSettings, savedSection, orderedKeys_put_keptSettings hd, ← savedSection, keptSettings]
    exact List.foldl_ext _ _ _ fun out k hk => by rw [hread k hk]
  rw [savedSection, workflowSection_savedDocument, hstart, hkept]
  rfl

variable {config} in
/-- **A document that was saved without edits is saved again as it is**, where
the nodes are. -/
theorem savedDocument_savedDocument (hd : Fields.distinct (workflowSection config) = true) :
    savedDocument settings (savedDocument settings config saved) saved
      = savedDocument settings config saved := by
  rw [savedDocument, savedSection_savedDocument settings saved hd]
  exact replaceSection_replaceSection (object?_get_savedSection settings saved)
    (Fields.put_ne_nil _ _ _) _

end Unedited

end CallFlow

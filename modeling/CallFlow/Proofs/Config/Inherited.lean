import CallFlow.Proofs.Config.Saving
import CallFlow.Proofs.Value.Hereditary

/-!
# What a document inherits

The document a graph is saved as is made of what is in the nodes, in the
edges, in the document saved before and in the edits, and of a few texts and
whole numbers that saving writes itself. So it has every hereditary property
that those have (`Value.Hereditary.saveGraph`). What is loaded has it in the
same way, but for places on the grid, which are computed.
-/

namespace CallFlow

namespace Value.Hereditary

variable {apart : Prop} {P : Value → Prop} (hP : Hereditary apart P)

include hP

/-! ## What is loaded -/

section Loading

variable {config : Value}

/-- The section of a document has what the document has. -/
theorem workflowSection (h : P config) : P (.obj (workflowSection config)) := by
  have hfields := hP.fieldsOrNone h
  rw [CallFlow.workflowSection]
  cases hwrapped : wrappedSection? config with
  | none => exact hfields
  | some inner =>
    have hinner := hP.get hfields sectionKey
    rwa [wrappedSection?_eq_some.mp hwrapped] at hinner

theorem sectionNodes {raws : List Fields} (h : P config)
    (hraws : sectionNodes config = .ok raws) : ∀ raw ∈ raws, P (.obj raw) := by
  obtain ⟨values, hvalues, hraws⟩ := Outcome.bind_eq_ok.mp hraws
  obtain rfl := Except.ok.inj hraws
  exact fun raw hraw =>
    hP.elementsOrNone (hP.get (hP.workflowSection h) "nodes") hvalues _ (mem_objectsAmong.mp hraw)

theorem kindOf {data : Fields} (h : P (.obj data)) : P (kindOf data) :=
  Value.prop_orElse (hP.get h "type") (hP.str _)

theorem priority_ofEdge {edge : Fields} (h : P (.obj edge)) :
    P (Transition.ofEdge edge).priority :=
  Value.prop_orElse (hP.get (hP.fieldsOrNone (hP.get h "data")) "priority") (hP.int 0)

/-- The edges of entries state priorities that have what the entries have. -/
theorem priority_of_mem_loadEdges {raws : List Fields} (hraws : ∀ raw ∈ raws, P (.obj raw))
    (taken : Option (List String)) {edge : Fields} (h : edge ∈ loadEdges raws taken) :
    P (Transition.ofEdge edge).priority := by
  obtain ⟨raw, hraw, id, item, hitem, rfl⟩ := exists_toEdge_of_mem_loadEdges raws taken h
  rw [(Transition.settled_ofItem item).ofEdge_toEdge]
  have hlist := hP.get (hraws raw hraw) "transitions"
  have hmem := mem_objectsAmong.mp hitem
  unfold transitionItems at hmem
  split at hmem
  next items hread =>
    rw [hread] at hlist
    exact Value.prop_orElse (hP.get (hP.list.mp hlist _ hmem) "priority") (hP.int 0)
  next => exact absurd hmem List.not_mem_nil

end Loading

/-! ## A node that is saved -/

section Node

variable {data out : Fields} {id transitions : Value}

/-- Fields copied by rule have what the data have. -/
theorem copyFields (rules : List (String × Presence)) (hdata : P (.obj data))
    (hout : P (.obj out)) : P (.obj (copyFields rules data out)) := by
  induction rules generalizing out with
  | nil => exact hout
  | cons rule rest ih =>
    rw [copyFields_cons]
    refine ih ?_
    split
    next value hread =>
      split
      · exact hP.put hout rfl (hP.get? hdata hread)
      · exact hout
    next => exact hout

theorem putTransitions (htransitions : P transitions) (hout : P (.obj out)) :
    P (.obj (putTransitions transitions out)) := by
  unfold CallFlow.putTransitions
  split
  · exact hP.put hout rfl htransitions
  · exact hout

/-- Actions on entry are written under texts. -/
theorem putEntryActions (hdata : P (.obj data)) (hout : P (.obj out)) {out' : Fields}
    (h : putEntryActions data out = .ok out') : P (.obj out') := by
  rw [CallFlow.putEntryActions] at h
  split at h
  · obtain ⟨items, hitems, h⟩ := Outcome.bind_eq_ok.mp h
    obtain rfl := Except.ok.inj h
    have hactions := hP.get (hP.fieldsOrNone (hP.get hdata "actions")) "on_entry"
    exact hP.put hout rfl
      (hP.obj_cons.mpr ⟨hP.list.mpr (hP.elements hactions hitems), hP.obj_nil⟩)
  · obtain rfl := Except.ok.inj h
    exact hout

theorem nodeHead (hdata : P (.obj data)) (hid : P id) : P (.obj (nodeHead data id)) := by
  rw [CallFlow.nodeHead]
  split
  · exact hP.obj_cons.mpr ⟨hid, hP.obj_cons.mpr ⟨hP.kindOf hdata, hP.obj_nil⟩⟩
  · exact hP.obj_cons.mpr ⟨hid, hP.obj_cons.mpr ⟨hP.kindOf hdata,
      hP.obj_cons.mpr ⟨hP.get hdata "name", hP.obj_nil⟩⟩⟩

/-- **The saved form of a node has what its data and its transitions have.** -/
theorem emitNode (hdata : P (.obj data)) (hid : P id) (htransitions : P transitions)
    (h : emitNode data id transitions = .ok out) : P (.obj out) := by
  have hhead := hP.nodeHead hdata hid
  cases hkind : NodeKind.ofName? (CallFlow.kindOf data).text with
  | none =>
    rw [CallFlow.emitNode, hkind] at h
    obtain rfl := Except.ok.inj h
    exact hP.putTransitions htransitions (hP.overlay hhead (hP.filter hdata _))
  | some kind =>
    have hbody : P (.obj (kind.plan.body data transitions (CallFlow.nodeHead data id))) := by
      refine hP.copyFields _ hdata ?_
      have hleading := hP.copyFields kind.plan.leading hdata hhead
      split
      · exact hP.putTransitions htransitions hleading
      · exact hleading
    rcases emitNode_of_known hkind h with ⟨_, hout⟩ | ⟨_, rfl⟩
    · exact hP.putEntryActions hdata hbody hout
    · exact hbody

theorem canvasPosition {node : Fields} (h : P (.obj node)) : P (canvasPosition node) := by
  have hposition := hP.fieldsOrNone (hP.get h "position")
  exact hP.obj_cons.mpr ⟨hP.getD hposition _ (hP.int 0),
    hP.obj_cons.mpr ⟨hP.getD hposition _ (hP.int 0), hP.obj_nil⟩⟩

/-- **A node is saved with what its data have**, the edges, and, where places
are kept, its place. -/
theorem saveNode {edges : List Fields} {keepPositions : Bool} {node : Fields}
    (hdata : P (.obj (dataOf node)))
    (hplace : keepPositions = true → P (CallFlow.canvasPosition node))
    (hedges : ∀ edge ∈ edges, P (Transition.ofEdge edge).priority)
    (h : saveNode edges keepPositions node = .ok out) : P (.obj out) := by
  obtain ⟨emitted, hemitted, rfl⟩ := saveNode_eq_ok h
  have htransitions : P (.list ((outgoing edges (savedId node (dataOf node))).map
      Transition.toItem)) := by
    refine hP.list.mpr fun item hitem => ?_
    obtain ⟨t, ht, rfl⟩ := List.mem_map.mp hitem
    obtain ⟨edge, hedge, rfl⟩ := List.mem_map.mp ht
    exact hP.obj_cons.mpr ⟨hP.str _, hP.obj_cons.mpr ⟨hP.str _, hP.obj_cons.mpr
      ⟨hedges edge (List.mem_of_mem_filter hedge), hP.obj_nil⟩⟩⟩
  have hemit := hP.emitNode hdata (hP.str _) htransitions hemitted
  have hmetadata := hP.get hdata "_metadata"
  rw [putMetadata]
  split
  next hkeep =>
    exact hP.put hemit rfl (hP.put (hP.fieldsOrNone hmetadata) rfl (hplace hkeep))
  next =>
    split
    · exact hemit
    · exact hP.put hemit rfl hmetadata

end Node

/-! ## The settings of a section -/

section Settings

variable {settings : Settings} {previous : Fields}

/-- The settings that are kept have what the section has. -/
theorem keptSettings {start : Value} (hprevious : P (.obj previous)) (hstart : P start) :
    P (.obj (keptSettings previous start)) := by
  have hfold : ∀ (keys : List Key) (out : Fields), (∀ k ∈ keys, k.isText = true) →
      P (.obj out) →
      P (.obj (keys.foldl (fun out k => Fields.put out k (Fields.get previous k)) out)) := by
    intro keys
    induction keys with
    | nil => exact fun out _ hout => hout
    | cons k rest ih =>
      exact fun out hkeys hout => ih _ (fun k' hk' => hkeys k' (List.mem_cons_of_mem _ hk'))
        (hP.put hout (hkeys k List.mem_cons_self) (hP.get hprevious k))
  refine hfold _ _ (fun k hk => ?_) (hP.obj_cons.mpr ⟨hstart, hP.obj_nil⟩)
  have hsettings : ∀ key ∈ settingKeys, key.isText = true := by decide
  rcases List.mem_append.mp (List.mem_of_mem_filter hk) with hk | hk
  · exact hsettings k (List.mem_of_mem_filter hk)
  · obtain ⟨f, hf, rfl⟩ := List.mem_map.mp (List.mem_of_mem_filter hk)
    exact (hP.mem hprevious f hf).1

/-- Laying edits over settings leaves what both have. -/
theorem foldl_applyEdit {changes out : Fields} (hchanges : P (.obj changes))
    (hout : P (.obj out)) : P (.obj (changes.foldl applyEdit out)) := by
  replace hchanges := hP.mem hchanges
  induction changes generalizing out with
  | nil => exact hout
  | cons c rest ih =>
    rw [List.forall_mem_cons] at hchanges
    refine ih ?_ hchanges.2
    rw [applyEdit]
    split
    · exact hP.filter hout _
    · exact hP.put hout hchanges.1.1 hchanges.1.2

/-- Edits that are an object, or null, are laid over the settings as its
fields. -/
theorem asFields {edits : Value} {changes : Fields}
    (hshape : edits = .null ∨ ∃ fields, edits = .obj fields) (hedits : P edits)
    (h : (edits.orElse (.obj [])).asFields = .ok changes) : P (.obj changes) := by
  rcases hshape with rfl | ⟨fields, rfl⟩
  · obtain rfl := Except.ok.inj h
    exact hP.obj_nil
  · unfold Value.orElse at h
    split at h
    · obtain rfl := Except.ok.inj h
      exact hedits
    · obtain rfl := Except.ok.inj h
      exact hP.obj_nil

/-- **The settings of a section that is saved have what the section saved
before, the edits and the default have.** -/
theorem mergeSettings {saved : List Fields} {edits : Value} {workflow : Fields}
    (hdefault : P settings.defaultInitialNode) (hprevious : P (.obj previous))
    (hshape : edits = .null ∨ ∃ fields, edits = .obj fields) (hedits : P edits)
    (h : mergeSettings settings previous (.list (saved.map Value.obj)) edits = .ok workflow) :
    P (.obj workflow) := by
  obtain ⟨changes, start, hchanges, hstart, rfl⟩ := mergeSettings_eq_ok h
  replace hchanges := hP.asFields hshape hedits hchanges
  have hstarted : P start := by
    rw [initialNode, firstId_map_obj] at hstart
    split at hstart
    · obtain rfl := Except.ok.inj hstart
      exact Value.prop_orElse (hP.get hchanges _) (hP.get hprevious _)
    · obtain rfl := Except.ok.inj hstart
      exact Value.prop_orElse (hP.str _) hdefault
  exact hP.foldl_applyEdit (hP.filter hchanges _) (hP.keptSettings hprevious hstarted)

end Settings

/-! ## The document -/

/-- A document has what the section and the document before it have. -/
theorem replaceSection {previous : Value} {workflow : Fields} (hprevious : P previous)
    (hworkflow : P (.obj workflow)) : P (replaceSection previous workflow) := by
  cases previous with
  | obj fields =>
    rw [CallFlow.replaceSection]
    split
    · exact hP.put hprevious rfl hworkflow
    · split
      · exact hP.obj_cons.mpr ⟨hworkflow, hP.obj_nil⟩
      · exact hworkflow
  | _ => exact hP.obj_cons.mpr ⟨hworkflow, hP.obj_nil⟩

/-- **The document a graph is saved as has what goes into it.** -/
theorem saveGraph {settings : Settings} {request : SaveRequest} {graph document : Value}
    {ns es : List Value} (hns : nodesOf graph = .ok ns) (hes : edgesOf graph = .ok es)
    (hnodes : ∀ node ∈ objectsAmong ns, P (.obj (dataOf node))
      ∧ (request.keepPositions = true → P (CallFlow.canvasPosition node)))
    (hedges : ∀ edge ∈ objectsAmong es, P (Transition.ofEdge edge).priority)
    (hdefault : P settings.defaultInitialNode) (hprevious : P request.previous)
    (hshape : request.edits = .null ∨ ∃ fields, request.edits = .obj fields)
    (hedits : P request.edits) (h : saveGraph settings request graph = .ok document) :
    P document := by
  obtain ⟨saved, workflow, hsaved, hworkflow, rfl⟩ := saveGraph_eq_ok h
  obtain ⟨ns', es', hns', hes', hall⟩ := saveNodes_eq_ok hsaved
  obtain rfl := Except.ok.inj (hns.symm.trans hns')
  obtain rfl := Except.ok.inj (hes.symm.trans hes')
  have hlist : P (.list (saved.map Value.obj)) := by
    refine hP.list.mpr fun value hvalue => ?_
    obtain ⟨out, hout, rfl⟩ := List.mem_map.mp hvalue
    obtain ⟨node, hnode, hsave⟩ := exists_of_mem_right hall hout
    exact hP.saveNode (hnodes node hnode).1 (hnodes node hnode).2 hedges hsave
  exact hP.replaceSection hprevious (hP.put (hP.mergeSettings hdefault
    (hP.workflowSection hprevious) hshape hedits hworkflow) rfl hlist)

/-- The objects a graph document lists have what the document has. -/
theorem objectsAmong_listed {graph : Value} {key : String} {values : List Value} (h : P graph)
    (hread : (do (Fields.get (← graph.object) key).elementsOrNone) = Except.ok values) :
    ∀ object ∈ objectsAmong values, P (.obj object) := by
  obtain ⟨fields, hfields, hread⟩ := Outcome.bind_eq_ok.mp hread
  cases graph with
  | obj fs =>
    obtain rfl := Except.ok.inj hfields
    exact fun object hobject =>
      hP.elementsOrNone (hP.get h key) hread _ (mem_objectsAmong.mp hobject)
  | _ => cases hfields

/-- **The document a graph is saved as has what the graph, the document saved
before, the edits and the default have.** -/
theorem saveGraph_of_graph {settings : Settings} {request : SaveRequest} {graph document : Value}
    (hgraph : P graph) (hdefault : P settings.defaultInitialNode) (hprevious : P request.previous)
    (hshape : request.edits = .null ∨ ∃ fields, request.edits = .obj fields)
    (hedits : P request.edits) (h : CallFlow.saveGraph settings request graph = .ok document) :
    P document := by
  obtain ⟨saved, workflow, hsaved, _, _⟩ := saveGraph_eq_ok h
  obtain ⟨ns, es, hns, hes, _⟩ := saveNodes_eq_ok hsaved
  refine hP.saveGraph hns hes (fun node hnode => ?_) (fun edge hedge => ?_) hdefault hprevious hshape
    hedits h
  · have hnode := hP.objectsAmong_listed hgraph hns node hnode
    exact ⟨hP.fieldsOrNone (hP.get hnode "data"), fun _ => hP.canvasPosition hnode⟩
  · exact hP.priority_ofEdge (hP.objectsAmong_listed hgraph hes edge hedge)

/-- **The document a configuration is loaded and saved again as has what the
configuration and the default have**, and the places, where these are kept. -/
theorem saveGraph_loadGraph {settings : Settings} {keepPositions : Bool} {config document : Value}
    {g : Graph} (hconfig : P config) (hload : loadGraph settings config = .ok g)
    (hplaces : keepPositions = true → ∀ node ∈ objectsAmong g.nodes, P (CallFlow.canvasPosition node))
    (hdefault : P settings.defaultInitialNode)
    (h : CallFlow.saveGraph settings { previous := config, keepPositions := keepPositions } g.toValue
      = .ok document) : P document := by
  obtain ⟨raws, nodes, hraws, rfl, hloaded⟩ := loadGraph_eq_ok hload
  have hraw := hP.sectionNodes hconfig hraws
  refine hP.saveGraph (nodesOf_toValue _) (edgesOf_toValue _) (fun node hnode => ⟨?_, fun hkeep =>
    hplaces hkeep node hnode⟩) (fun edge hedge => ?_) hdefault hconfig (.inl rfl) hP.null h
  · change node ∈ objectsAmong (nodes.map Value.obj) at hnode
    rw [objectsAmong_map_obj] at hnode
    obtain ⟨raw, hmem, hnode⟩ := exists_of_mem_right hloaded hnode
    rw [hnode.dataOf_eq]
    exact hP.put (hraw raw hmem) rfl (hP.kindOf (hraw raw hmem))
  · change edge ∈ objectsAmong ((loadEdges raws (some [])).map Value.obj) at hedge
    rw [objectsAmong_map_obj] at hedge
    exact hP.priority_of_mem_loadEdges hraw _ hedge

end Value.Hereditary

end CallFlow

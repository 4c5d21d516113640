import CallFlow.Workflow
import CallFlow.Proofs.Config.Reload
import CallFlow.Proofs.Validation.Check

/-!
# What is deployed is valid

What is checked before deploying is the graph in the editor, and what is
deployed is the document made of it. The two are different things: the
document has other ids of edges, leaves out fields and even transitions, and
names an initial node of its own. Nothing is wrong with the document all the
same (`deploy_sound`).

Rule by rule, the document satisfies what the graph satisfied. Its nodes
have the ids of the nodes of the graph, and its transitions are those of the
edges or fewer. The fields a rule looks at are saved by the plan of the very
kind whose rule it is (`contentProblems_reloaded`), each where it says
something. And the initial node is the one the graph was checked with.
-/

namespace CallFlow

/-! ## Fields a rule looks at -/

section Contents

variable {edges : List Fields} {keepPositions : Bool} {node out : Fields} {kind : NodeKind}
  (hsave : saveNode edges keepPositions node = .ok out)
  (hkind : NodeKind.ofName? (kindOf (dataOf node)).text = some kind)

include hsave hkind

theorem get?_saveNode_of_rule {rule : String × Presence} (hrule : rule ∈ kind.plan.fields) :
    Fields.get? out rule.1
      = if copiesKey kind.plan.fields (dataOf node) rule.1 then Fields.get? (dataOf node) rule.1
        else none := by
  obtain ⟨emitted, hemitted, rfl⟩ := saveNode_eq_ok hsave
  rw [get?_putMetadata _ _ _ _ (kind.rule_ne_ownKey hrule (by decide)),
    get?_emitNode_of_rule hkind hemitted hrule]

/-- **A text that prompts somebody is saved where it says something.** -/
theorem truthy_saveNode_of_stated {key : String} (hrule : (key, .stated) ∈ kind.plan.fields) :
    (Fields.get out key).truthy = (Fields.get (dataOf node) key).truthy := by
  rw [Fields.get, get?_saveNode_of_rule hsave hkind hrule]
  split
  · rfl
  next hno =>
    rw [Fields.get]
    cases hread : Fields.get? (dataOf node) key with
    | none => rfl
    | some value =>
      cases hstated : value.truthy with
      | false => exact hstated.symm
      | true => exact absurd (copiesKey_of_keeps hrule hread hstated) hno

/-- **A structured field is saved as it is**, and left out where it is null. -/
theorem get_saveNode_of_notNull {key : String} (hrule : (key, .notNull) ∈ kind.plan.fields) :
    Fields.get out key = Fields.get (dataOf node) key := by
  rw [Fields.get, get?_saveNode_of_rule hsave hkind hrule]
  split
  · rfl
  next hno =>
    rw [Fields.get]
    cases hread : Fields.get? (dataOf node) key with
    | none => rfl
    | some value =>
      by_cases hnull : value = .null
      · rw [hnull]
        rfl
      · exact absurd (copiesKey_of_keeps hrule hread (by simpa [Presence.keeps] using hnull)) hno

end Contents

/-- **A node lacks what its kind needs after saving exactly if it did
before.** -/
theorem contentProblems_reloaded {edges : List Fields} {keepPositions : Bool}
    {node out node' : Fields} (hsave : saveNode edges keepPositions node = .ok out)
    (hloaded : LoadedAs out node') (hid : idOf node' = idOf node) :
    contentProblems node' = contentProblems node := by
  have hkindText : kindText node' = kindText node := by
    rw [kindText_eq, kindText_eq, hloaded.kindOf_dataOf, kindOf_saveNode hsave]
  have hget : ∀ key : String, key ≠ "type" →
      Fields.get (dataOf node') key = Fields.get out key :=
    fun key hkey => hloaded.get_dataOf (by simpa using hkey)
  -- a rule looks at the fields of one kind only, so the kind has to be known first
  cases hkind : NodeKind.ofName? (kindText node) with
  | none => simp only [contentProblems, hkindText, hkind]
  | some kind =>
    have hkind' := hkind
    rw [kindText_eq] at hkind'
    have hstated : ∀ key : String, (key, .stated) ∈ kind.plan.fields → key ≠ "type" →
        (Fields.get (dataOf node') key).truthy = (Fields.get (dataOf node) key).truthy :=
      fun key hrule hkey => by rw [hget key hkey, truthy_saveNode_of_stated hsave hkind' hrule]
    have hnotNull : ∀ key : String, (key, .notNull) ∈ kind.plan.fields → key ≠ "type" →
        Fields.get (dataOf node') key = Fields.get (dataOf node) key :=
      fun key hrule hkey => by rw [hget key hkey, get_saveNode_of_notNull hsave hkind' hrule]
    simp only [contentProblems, hkindText, hkind, hid]
    cases kind with
    | standard =>
      dsimp only
      rw [hstated "system_prompt" (by decide) (by decide),
        hstated "static_text" (by decide) (by decide)]
    | retrieveVariable =>
      dsimp only
      rw [hnotNull "variables" (by decide) (by decide),
        hstated "variable_name" (by decide) (by decide),
        hstated "extraction_prompt" (by decide) (by decide)]
    | agentTransfer =>
      dsimp only
      rw [hnotNull "target_agent_id" (by decide) (by decide)]
    | _ => rfl

/-! ## The initial node -/

/-- **A section of nodes names an initial node.** -/
theorem initialNode_ne_null {settings : Settings} {changes previous : Fields} {out : Fields}
    {saved : List Fields} {start : Value} (hid : idOf out ≠ "")
    (h : initialNode settings changes previous (.list ((out :: saved).map Value.obj))
      = .ok start) : start ≠ .null := by
  rintro rfl
  rw [initialNode] at h
  split at h
  next hnamed =>
    rw [Except.ok.inj h] at hnamed
    cases hnamed
  next =>
    have hfirst : firstId (.list ((out :: saved).map Value.obj)) = .ok (idOf out) := rfl
    have hstated : (Value.str (idOf out)).truthy = true := by simpa [Value.truthy] using hid
    rw [hfirst, Outcome.ok_bind, Value.orElse_of_truthy hstated] at h
    cases h

/-- The initial node of a section that was saved is the one that was decided
on. -/
theorem initialNode_saveGraph {settings : Settings} {request : SaveRequest} {graph document : Value}
    {saved : List Fields} (hsaved : saveNodes graph request.keepPositions = .ok saved)
    (hedits : editsSettings request.edits = true)
    (h : saveGraph settings request graph = .ok document) :
    ∃ changes, initialNode settings changes (workflowSection request.previous)
        (.list (saved.map Value.obj))
      = .ok (Fields.get (workflowSection document) "initial_node") := by
  obtain ⟨saved', workflow, hsaved', hmerge, rfl⟩ := saveGraph_eq_ok h
  obtain rfl := Except.ok.inj (hsaved.symm.trans hsaved')
  rw [workflowSection_saveGraph hedits hmerge]
  obtain ⟨changes, start, _, hstart, rfl⟩ := mergeSettings_eq_ok hmerge
  refine ⟨changes, ?_⟩
  rw [Fields.get_put_of_ne _ _ (by decide), Fields.get, get?_mergeSettings_initialNode,
    Option.getD_some]
  exact hstart

/-! ## The document -/

section Document

variable {edges nodes saved nodes' : List Fields} {keepPositions : Bool} {initial : Value}
  (hall : List.Forall₂ (fun node out => saveNode edges keepPositions node = .ok out) nodes saved)
  (hloaded : List.Forall₂ LoadedAs saved nodes')

include hall

theorem idOf_ne_of_saved (hvalid : Valid nodes edges initial) :
    ∀ out ∈ saved, idOf out ≠ "" := by
  intro out hout
  obtain ⟨node, hnode, hsave⟩ := exists_of_mem_right hall hout
  rw [idOf_saveNode hsave, savedId_of_idOf (hvalid.named node hnode)]
  exact hvalid.named node hnode

/-- Some node of the document ends the call. -/
theorem exists_endCall_of_saved (hvalid : Valid nodes edges initial)
    (hkinds : ∀ node ∈ nodes, hasNamedKind node = true) :
    ∃ out ∈ saved, Fields.get out "type" = .str NodeKind.endCall.name := by
  obtain ⟨node, hnode, hend⟩ := hvalid.endCall
  obtain ⟨out, hout, hsave⟩ := exists_of_mem_left hall hnode
  obtain ⟨kind, hkind⟩ := kindOf_eq_str (hkinds node hnode)
  rw [kindText_eq, hkind, Value.text_str] at hend
  exact ⟨out, hout, by rw [get_type_saveNode hsave, hkind, hend]⟩

/-- **The targets of what is saved are targets of edges.** -/
theorem target_mem_of_saved (hvalid : Valid nodes edges initial) {out : Fields}
    (hout : out ∈ saved) {t : Transition} (ht : t ∈ statedTransitions out) :
    t.target ∈ nodes.map idOf := by
  obtain ⟨node, _, hsave⟩ := exists_of_mem_right hall hout
  obtain ⟨edge, hedge, rfl⟩ := exists_ofEdge_of_mem_statedTransitions hsave ht
  exact hvalid.targets edge hedge

/-- **A transition of the document leads to a node of the document.** -/
theorem exists_target_of_saved (hvalid : Valid nodes edges initial) {out : Fields}
    (hout : out ∈ saved) {item : Value} (hitem : item ∈ transitionItems out) :
    ∃ id ∈ saved.map idOf, Fields.get item.fieldsOrNone "target" = .str id := by
  obtain ⟨node, _, hsave⟩ := exists_of_mem_right hall hout
  rw [transitionItems_eq_map hsave] at hitem
  obtain ⟨t, ht, rfl⟩ := List.mem_map.mp hitem
  rw [map_idOf_saveNode hvalid.named hall]
  exact ⟨t.target, target_mem_of_saved hall hvalid hout ht,
    by simp [Transition.toItem, Value.fieldsOrNone, Fields.get, Fields.get?]⟩

include hloaded

/-- **A valid graph that is saved and loaded again is valid.** -/
theorem valid_reloaded (hvalid : Valid nodes edges initial) :
    Valid nodes' (loadEdges saved (some [])) initial := by
  have hids : nodes'.map idOf = nodes.map idOf :=
    (map_idOf_loadedAs hloaded).trans (map_idOf_saveNode hvalid.named hall)
  have hboth := forall₂_comp hall hloaded
  have hid : ∀ node ∈ nodes, ∀ node', (∃ out ∈ saved, saveNode edges keepPositions node = .ok out
      ∧ LoadedAs out node') → idOf node' = idOf node := by
    rintro node hnode node' ⟨out, _, hsave, hnode'⟩
    exact hnode'.idOf_eq.trans ((idOf_saveNode hsave).trans
      (savedId_of_idOf (hvalid.named node hnode)))
  refine ⟨hids ▸ hvalid.ids, fun node' hnode' => ?_, fun edge hedge => ?_, fun edge hedge => ?_,
    ?_, hids ▸ hvalid.initial, fun node' hnode' => ?_⟩
  · obtain ⟨node, hnode, hsaved⟩ := exists_of_mem_right hboth hnode'
    rw [hid node hnode node' hsaved]
    exact hvalid.named node hnode
  · rw [map_idOf_loadedAs hloaded]
    exact sourceOf_mem_of_mem_loadEdges saved _ hedge
  · obtain ⟨out, hout, id, item, hitem, rfl⟩ := exists_toEdge_of_mem_loadEdges saved _ hedge
    rw [targetOf_toEdge, hids]
    exact target_mem_of_saved hall hvalid hout (List.mem_map_of_mem hitem)
  · obtain ⟨node, hnode, hend⟩ := hvalid.endCall
    obtain ⟨node', hnode', out, _, hsave, hloadedAs⟩ := exists_of_mem_left hboth hnode
    refine ⟨node', hnode', ?_⟩
    rw [kindText_eq, hloadedAs.kindOf_dataOf, kindOf_saveNode hsave, ← kindText_eq, hend]
  · obtain ⟨node, hnode, out, hout, hsave, hloadedAs⟩ := exists_of_mem_right hboth hnode'
    rw [contentProblems_reloaded hsave hloadedAs
      (hid node hnode node' ⟨out, hout, hsave, hloadedAs⟩)]
    exact hvalid.contents node hnode

end Document

/-- **Nothing is wrong with what is deployed.** Where a graph is deployed,
checking the document finds no problem: its nodes have ids, each a different
one, its transitions lead to nodes, it starts at a node, and some node ends
the call. Where it is not, the report says that the graph is not valid and
names an error. -/
theorem deploy_sound {settings : Settings} {request : SaveRequest} {graph : Value}
    {values : List Value} {deployment : Deployment} (hnodes : nodesOf graph = .ok values)
    (hkinds : ∀ node ∈ objectsAmong values, hasNamedKind node = true)
    (hedits : editsSettings request.edits = true)
    (h : deploy settings request graph = .ok deployment) :
    match deployment with
    | .accepted config =>
      problemsOfConfig config = .ok []
      ∧ ∃ saved, sectionNodes config = .ok saved
        ∧ (saved.map idOf).Nodup ∧ (∀ out ∈ saved, idOf out ≠ "")
        ∧ (∀ out ∈ saved, ∀ item ∈ transitionItems out, ∃ id ∈ saved.map idOf,
          Fields.get item.fieldsOrNone "target" = .str id)
        ∧ (∃ id ∈ saved.map idOf,
          Fields.get (workflowSection config) "initial_node" = .str id)
        ∧ ∃ out ∈ saved, Fields.get out "type" = .str NodeKind.endCall.name
    | .rejected problems =>
      Fields.get (reportOf problems).fieldsOrNone "valid" = .bool false
      ∧ ∃ message messages,
        Fields.get (reportOf problems).fieldsOrNone "errors" = .list (message :: messages) := by
  obtain ⟨config, hsave, h⟩ := Outcome.bind_eq_ok.mp h
  obtain ⟨problems, hproblems, h⟩ := Outcome.bind_eq_ok.mp h
  obtain rfl := Except.ok.inj h
  cases problems with
  | cons problem rest =>
    exact ⟨by simp [reportOf, Value.fieldsOrNone, Fields.get, Fields.get?],
      .str problem.message, rest.map fun p => .str p.message,
      by simp [reportOf, Value.fieldsOrNone, Fields.get, Fields.get?]⟩
  | nil =>
    dsimp only [List.isEmpty_nil, if_true]
    obtain ⟨ns, hns, hproblems⟩ := Outcome.bind_eq_ok.mp hproblems
    obtain ⟨es, hedges, hproblems⟩ := Outcome.bind_eq_ok.mp hproblems
    obtain rfl := Except.ok.inj (hnodes.symm.trans hns)
    have hvalid := problemsAmong_eq_nil_iff.mp hproblems
    obtain ⟨saved, nodes', hsaved, hsection, hload, hall, hloaded⟩ :=
      loadGraph_saveGraph .default hnodes hedges hkinds hedits (.inl rfl) hsave
    have hids := map_idOf_saveNode hvalid.named hall
    have hnamed := idOf_ne_of_saved hall hvalid
    have hend := exists_endCall_of_saved hall hvalid hkinds
    obtain ⟨id, hid, hinitial⟩ : ∃ id ∈ saved.map idOf,
        Fields.get (workflowSection config) "initial_node" = .str id := by
      obtain ⟨changes, hstart⟩ := initialNode_saveGraph hsaved hedits hsave
      rw [hids]
      -- the rule allows that no start is asked for, but a section with nodes names one
      refine hvalid.initial.resolve_left ?_
      obtain ⟨last, hlast, _⟩ := hend
      cases saved with
      | nil => cases hlast
      | cons out rest => exact initialNode_ne_null (hnamed out List.mem_cons_self) hstart
    refine ⟨?_, saved, hsection, hids ▸ hvalid.ids, hnamed,
      fun out hout item hitem => exists_target_of_saved hall hvalid hout hitem,
      ⟨id, hid, hinitial⟩, hend⟩
    have hreloaded := problemsAmong_eq_nil_iff.mpr (valid_reloaded hall hloaded hvalid)
    rw [hinitial] at hreloaded
    rw [problemsOfConfig, hload, Outcome.ok_bind, hinitial, problemsOf, nodesOf_toValue,
      edgesOf_toValue]
    simp only [Graph.ofObjects, Outcome.ok_bind, objectsAmong_map_obj, Value.text_str]
    exact hreloaded

/-- Deploying a graph of a node that speaks and one that ends the call. -/
theorem deploy_sound_speaking :
    ∃ config, deploy .default {} (Graph.ofObjects
        [[("id", .str "speak"), ("data", .obj [("static_text", .str "Hello.")])],
          [("id", .str "end"), ("data", .obj [("type", .str "end_call")])]]
        [[("source", .str "speak"), ("target", .str "end")]]).toValue = .ok (.accepted config)
      ∧ problemsOfConfig config = .ok [] := by
  obtain ⟨config, hdeploy⟩ : ∃ config, deploy .default {} (Graph.ofObjects
      [[("id", .str "speak"), ("data", .obj [("static_text", .str "Hello.")])],
        [("id", .str "end"), ("data", .obj [("type", .str "end_call")])]]
      [[("source", .str "speak"), ("target", .str "end")]]).toValue = .ok (.accepted config) :=
    ⟨_, rfl⟩
  exact ⟨config, hdeploy, (deploy_sound (nodesOf_toValue _) (by decide) rfl hdeploy).1⟩

end CallFlow

import CallFlow.Proofs.Workflow.Opening

/-!
# Checking a configuration and deploying it agree

There are two ways to learn whether a configuration may take calls. One is
to check it as it stands. The other is to open it and deploy what is shown.
The first looks at the nodes as they were loaded and at the initial node the
section states, the second at the nodes as they are shown and at the initial
node of the document they are saved as.

The two come to one answer (`deploy_accepted_iff_problemsOfConfig`). The
nodes make no difference, since a layout and a list that was copied anew are
nothing a rule looks at. The initial node makes one only where the section
states none. The check then asks for none, while saving fills in the first
node; but where nothing else is wrong there is a first node, and it has an
id.
-/

namespace CallFlow

/-- **A graph is deployed exactly if nothing is wrong with it** and the
initial node of the document it is saved as. -/
theorem deploy_accepted_iff {settings : Settings} {request : SaveRequest} {graph document : Value}
    (h : saveGraph settings request graph = .ok document) :
    (∃ config, deploy settings request graph = .ok (.accepted config))
      ↔ problemsOf graph (Fields.get (workflowSection document) "initial_node") = .ok [] := by
  rw [deploy, h, Outcome.ok_bind]
  cases problemsOf graph (Fields.get (workflowSection document) "initial_node") with
  | error fault => simp [bind, Except.bind]
  | ok problems => cases problems <;> simp [Outcome.pure_eq]

theorem LoadedAs.contentProblems_eq {raw node node' : Fields} (h : LoadedAs raw node)
    (h' : LoadedAs raw node') : contentProblems node' = contentProblems node := by
  have hkind : kindText node' = kindText node := by
    rw [kindText_eq, kindText_eq, h.kindOf_dataOf, h'.kindOf_dataOf]
  have hdata : dataOf node' = dataOf node := by rw [h.dataOf_eq, h'.dataOf_eq]
  simp only [contentProblems, hkind, hdata, h.idOf_eq, h'.idOf_eq]

/-- **What is wrong with a configuration is what is wrong with the graph it
is opened as**, and the initial node it states. -/
theorem problemsOfConfig_eq {settings : Settings} {config : Value} {arranged : Bool}
    {direction : Value} {placed : Option Value} {search : Rank.Search} {graph : Value}
    (h : openWorkflow settings config arranged direction placed search = .ok graph) :
    problemsOfConfig config
      = problemsOf graph (match Fields.get (workflowSection config) "initial_node" with
        | .null => Value.null
        | stated => .str stated.text) := by
  obtain ⟨raws, nodes, nodes', hraws, hload, hall, rfl, hshown⟩ := openWorkflow_eq_ok h
  obtain ⟨g, hdefault⟩ := exists_loadGraph_default hload
  obtain ⟨raws', nodes₀, hraws', rfl, hall₀⟩ := loadGraph_eq_ok hdefault
  obtain rfl := Except.ok.inj (hraws.symm.trans hraws')
  have hback : List.Forall₂ (fun node raw => LoadedAs raw node) nodes₀ raws := hall₀.flip
  have hsame : List.Forall₂ (fun node node' => idOf node' = idOf node
      ∧ kindText node' = kindText node ∧ contentProblems node' = contentProblems node)
      nodes₀ nodes' := by
    refine (forall₂_comp hback (forall₂_comp hall hshown)).imp ?_
    rintro node₀ node' ⟨raw, _, hnode₀, node, _, hnode, hnode'⟩
    refine ⟨?_, ?_, ?_⟩
    · rw [hnode'.idOf_eq, hnode.idOf_eq, hnode₀.idOf_eq]
    · rw [hnode'.checkedAs.kindText_eq, kindText_eq, kindText_eq, hnode.kindOf_dataOf,
        hnode₀.kindOf_dataOf]
    · rw [hnode'.checkedAs.contentProblems_eq, hnode₀.contentProblems_eq hnode]
  rw [problemsOfConfig, hdefault, Outcome.ok_bind, problemsOf, problemsOf, nodesOf_toValue,
    edgesOf_toValue, nodesOf_toValue, edgesOf_toValue]
  simp only [Graph.ofObjects, Outcome.ok_bind, objectsAmong_map_obj]
  exact (problemsAmong_congr hsame (List.forall₂_same.mpr fun _ _ => ⟨rfl, rfl, rfl⟩) _).symm

/-- **The initial node that is filled in is no problem of its own**: where
nothing else is wrong with a graph, the first node that is saved has an id
and is there. -/
theorem problemsAmong_startOf_iff {settings : Settings} {previous : Fields}
    {nodes saved edges edges' : List Fields} {keepPositions : Bool}
    (hnone : Fields.get previous "initial_node" = .null)
    (hsaved : List.Forall₂ (fun node out => saveNode edges' keepPositions node = .ok out)
      nodes saved) :
    problemsAmong nodes edges (startOf settings previous saved) = .ok []
      ↔ problemsAmong nodes edges .null = .ok [] := by
  rw [problemsAmong_eq_nil_iff, problemsAmong_eq_nil_iff]
  constructor
  · exact fun hvalid => { hvalid with initial := .inl rfl }
  · intro hvalid
    refine { hvalid with initial := .inr ?_ }
    -- some node ends the call, so there is a first one
    obtain ⟨last, hlast, _⟩ := hvalid.endCall
    cases hsaved with
    | nil => cases hlast
    | @cons node out nodes saved hnode _ =>
      have hnamed : idOf node ≠ "" := hvalid.named node List.mem_cons_self
      have hid : idOf out = idOf node := (idOf_saveNode hnode).trans (savedId_of_idOf hnamed)
      have hstated : (Value.str (idOf out)).truthy = true := by
        simpa [Value.truthy, hid] using hnamed
      refine ⟨idOf node, List.mem_map_of_mem List.mem_cons_self, ?_⟩
      rw [startOf, hnone, ← hid]
      exact Value.orElse_of_truthy hstated _

/-- **The check and the gate agree.** Where the section of a configuration
states an initial node that is a text with something in it, or states none,
and the configuration is opened, arranged or not, and saved without fault,
then it is deployed exactly if checking it finds no problem. -/
theorem deploy_accepted_iff_problemsOfConfig {settings settings' : Settings} {config : Value}
    {arranged : Bool} {direction : Value} {placed : Option Value} {search : Rank.Search}
    {graph document : Value}
    (hstart : Fields.get (workflowSection config) "initial_node" = .null
      ∨ ∃ name, name ≠ "" ∧ Fields.get (workflowSection config) "initial_node" = .str name)
    (hopen : openWorkflow settings config arranged direction placed search = .ok graph)
    (hsave : saveGraph settings' { previous := config } graph = .ok document) :
    (∃ deployed, deploy settings' { previous := config } graph = .ok (.accepted deployed))
      ↔ problemsOfConfig config = .ok [] := by
  rw [deploy_accepted_iff hsave, problemsOfConfig_eq hopen]
  obtain ⟨raws, nodes, nodes', _, _, _, rfl, _⟩ := openWorkflow_eq_ok hopen
  rw [saveGraph_null] at hsave
  obtain ⟨saved, hsaved, rfl⟩ := Outcome.map_eq_ok.mp hsave
  rw [initialNode_savedDocument]
  rcases hstart with hnone | ⟨name, hname, hstated⟩
  · rw [hnone, problemsOf, problemsOf, nodesOf_toValue, edgesOf_toValue]
    simp only [Graph.ofObjects, Outcome.ok_bind, objectsAmong_map_obj]
    exact problemsAmong_startOf_iff hnone (Outcome.mapM_eq_ok.mp hsaved)
  · have htruthy : (Value.str name).truthy = true := by simpa [Value.truthy] using hname
    rw [startOf, hstated, Value.orElse_of_truthy htruthy]
    rfl

/-- A configuration of a node that speaks and one that ends the call, which
states no initial node. -/
def speakingConfig : Value :=
  .obj [("nodes", .list [
    .obj [("id", .str "speak"), ("static_text", .str "Hello."),
      ("transitions", .list [.obj [("target", .str "end")]]),
      ("_metadata", .obj [("position", .obj [("x", .int 0), ("y", .int 0)])])],
    .obj [("id", .str "end"), ("type", .str "end_call"),
      ("_metadata", .obj [("position", .obj [("x", .int 0), ("y", .int 9)])])]])]

/-- Opening that configuration, with one of its nodes moved, and deploying
what is shown. -/
theorem deploy_accepted_speakingConfig :
    ∃ graph document, openWorkflow .default speakingConfig true .null (some (.list
        [.obj [("id", .str "end"), ("position", .obj [("x", .float 1.5), ("y", .float 0.5)])]]))
          = .ok graph
      ∧ saveGraph .default { previous := speakingConfig } graph = .ok document
      ∧ ∃ deployed, deploy .default { previous := speakingConfig } graph
          = .ok (.accepted deployed) := by
  obtain ⟨graph, hopen, document, hsave⟩ : ∃ graph,
      openWorkflow .default speakingConfig true .null (some (.list
        [.obj [("id", .str "end"), ("position", .obj [("x", .float 1.5), ("y", .float 0.5)])]]))
          = .ok graph
      ∧ ∃ document, saveGraph .default { previous := speakingConfig } graph = .ok document :=
    ⟨_, rfl, _, rfl⟩
  exact ⟨graph, document, hopen, hsave,
    (deploy_accepted_iff_problemsOfConfig (.inl rfl) hopen hsave).mpr (by decide +kernel)⟩

end CallFlow

import CallFlow.Workflow
import CallFlow.Proofs.Config.Merging

/-!
# Reading back what was saved

Where the section of a document stands is decided twice. Whoever saves looks at
the document saved before: a section that stood on its own is put on its own
again. Whoever reads looks at the document that is read: what stands under the
key of a section, if it is an object, is the section.

So the two agree unless a section is saved on its own that has an object under
that key. The section saved before had none, or it would not have stood on its
own, and the nodes and the initial node go under other keys. But an edit may
write any key, and then what is read back is what the edit brought, which is
never what was saved (`readBack_saveGraph`).
-/

namespace CallFlow

/-! ## Where a section stands -/

section Place

variable {previous : Value} {workflow : Fields}

theorem ne_of_get_eq_obj {fields inner : Fields} {key : Key}
    (h : Fields.get fields key = .obj inner) : inner ≠ fields := by
  rintro rfl
  obtain ⟨k, hmem, _⟩ := Fields.mem_of_get? (Fields.get?_of_get h (by simp))
  have hsmaller := List.sizeOf_lt_of_mem hmem
  rw [Prod.mk.sizeOf_spec, Value.obj.sizeOf_spec] at hsmaller
  omega

/-- **A section that is put inside a document is found there**, whatever it
holds. -/
theorem workflowSection_of_not_isBare (h : ¬ IsBare previous) (workflow : Fields) :
    workflowSection (replaceSection previous workflow) = workflow := by
  cases previous with
  | obj fields =>
    rw [replaceSection]
    split
    · exact workflowSection_put_sectionKey fields workflow
    next hbare =>
      have hnone : fields = [] := by
        by_contra hfields
        exact h ⟨hfields, Option.not_isSome_iff_eq_none.mp hbare⟩
      rw [hnone]
      exact workflowSection_put_sectionKey [] workflow
  | _ => exact workflowSection_put_sectionKey [] workflow

end Place

/-! ## The section that is saved -/

section Saved

variable {settings : Settings} {request : SaveRequest} {graph document : Value}
  {saved : List Fields} {workflow written : Fields}

/-- **What a section that is saved in the place of one has under the key of a
section**: an object exactly if the edits do. -/
theorem object?_get_mergeSettings {previous nodes edits : Value}
    (hbare : wrappedSection? previous = none) (hedits : AreEdits edits)
    (h : mergeSettings settings (workflowSection previous) nodes edits = .ok workflow) :
    (Fields.get workflow sectionKey).object? = wrappedSection? edits := by
  obtain ⟨changes, start, hchanges, _, rfl⟩ := mergeSettings_eq_ok h
  obtain ⟨hfields, hd⟩ := hedits.spec
  obtain rfl := Except.ok.inj (hfields.symm.trans hchanges)
  rw [wrappedSection?, Fields.get, Fields.get, get?_editedSettings hd (by decide)]
  cases Fields.get? edits.fieldsOrNone sectionKey with
  | none =>
    rw [workflowSection, hbare]
    exact hbare
  | some value =>
    dsimp only
    split
    next hnull =>
      rw [hnull]
      rfl
    next => rfl

/-- **Whether a section is the one a graph is saved as**, with some entries. -/
structure WrittenAs (settings : Settings) (request : SaveRequest) (graph : Value)
    (saved : List Fields) (written : Fields) : Prop where
  /-- Each object among the nodes of the graph has an entry, in their order and
  under its id. -/
  entries : ∃ nodes edges, nodesOf graph = .ok nodes ∧ edgesOf graph = .ok edges
    ∧ List.Forall₂ (fun node out =>
        saveNode (objectsAmong edges) request.keepPositions node = .ok out
          ∧ Fields.get out "id" = .str (savedId node (dataOf node)))
      (objectsAmong nodes) saved
  /-- The section is made of the settings and the entries. -/
  merged : ∃ workflow, mergeSettings settings (workflowSection request.previous)
      (.list (saved.map Value.obj)) request.edits = .ok workflow
    ∧ written = Fields.put workflow "nodes" (.list (saved.map Value.obj))
  /-- Its nodes are the entries. -/
  nodes : Fields.get written "nodes" = .list (saved.map Value.obj)
  /-- Its initial node is the one that is decided on. -/
  start : initialNode settings request.edits.fieldsOrNone (workflowSection request.previous)
    (.list (saved.map Value.obj)) = .ok (Fields.get written "initial_node")

/-- **A graph that is saved is saved as a section**, in the place of the one
saved before. -/
theorem exists_writtenAs (hedits : AreEdits request.edits)
    (h : saveGraph settings request graph = .ok document) :
    ∃ saved written, WrittenAs settings request graph saved written
      ∧ document = replaceSection request.previous written := by
  obtain ⟨saved, workflow, hsaved, hmerge, rfl⟩ := saveGraph_eq_ok h
  obtain ⟨nodes, edges, hnodes, hedges, hall⟩ := saveNodes_eq_ok hsaved
  refine ⟨saved, _, ⟨⟨nodes, edges, hnodes, hedges, hall.imp fun node out hsave =>
    ⟨hsave, get_id_saveNode hsave⟩⟩, ⟨workflow, hmerge, rfl⟩, Fields.get_put_self _ _ _, ?_⟩, rfl⟩
  obtain ⟨changes, start, hchanges, hstart, rfl⟩ := mergeSettings_eq_ok hmerge
  obtain rfl := Except.ok.inj (hedits.spec.1.symm.trans hchanges)
  rw [Fields.get_put_of_ne _ _ (by decide), Fields.get, get?_mergeSettings_initialNode,
    Option.getD_some]
  exact hstart

theorem WrittenAs.wrappedSection?_eq (h : WrittenAs settings request graph saved written)
    (hbare : wrappedSection? request.previous = none) (hedits : AreEdits request.edits) :
    wrappedSection? (.obj written) = wrappedSection? request.edits := by
  obtain ⟨workflow, hmerge, rfl⟩ := h.merged
  rw [← object?_get_mergeSettings hbare hedits hmerge, wrappedSection?, Value.fieldsOrNone,
    Fields.get_put_of_ne _ _ (by decide)]

/-- **A section that was saved is the section of the document**, unless it
stands on its own and the edits have one of their own. -/
theorem WrittenAs.workflowSection_eq_iff (h : WrittenAs settings request graph saved written)
    (hedits : AreEdits request.edits) :
    workflowSection (replaceSection request.previous written) = written
      ↔ ¬ (IsBare request.previous ∧ (wrappedSection? request.edits).isSome = true) := by
  by_cases hbare : IsBare request.previous
  · have hwraps := h.wrappedSection?_eq hbare.2 hedits
    rw [replaceSection_of_isBare hbare, workflowSection, hwraps]
    cases hread : wrappedSection? request.edits with
    | none => simp [Value.fieldsOrNone]
    | some inner =>
      rw [hread] at hwraps
      have hother : inner ≠ written := ne_of_get_eq_obj (wrappedSection?_eq_some.mp hwraps)
      simp [hother, hbare]
  · simp [workflowSection_of_not_isBare hbare, hbare]

/-- **What is saved is what is read back**, but for one kind of edit. Let a
graph be saved, over whatever document and with whatever edits of settings.
Then the section that is saved has one entry for each node of the graph, in
their order and under their ids, and the initial node that is decided on; and
it is the section of the document that is saved, unless the document before was
itself a section and the edits have an object under the key of a section. Where
it is, the entries are those that will be loaded, and deploying checks the
graph with the initial node that is saved. -/
theorem readBack_saveGraph (hedits : AreEdits request.edits)
    (h : saveGraph settings request graph = .ok document) :
    ∃ saved written, WrittenAs settings request graph saved written
      ∧ (workflowSection document = written
        ↔ ¬ (IsBare request.previous ∧ (wrappedSection? request.edits).isSome = true))
      ∧ (workflowSection document = written →
        sectionNodes document = .ok saved
        ∧ deploy settings request graph = (do
          let problems ← problemsOf graph (Fields.get written "initial_node")
          return if problems.isEmpty then .accepted document else .rejected problems)) := by
  obtain ⟨saved, written, hwritten, rfl⟩ := exists_writtenAs hedits h
  refine ⟨saved, written, hwritten, hwritten.workflowSection_eq_iff hedits, fun hread => ⟨?_, ?_⟩⟩
  · obtain ⟨workflow, _, rfl⟩ := hwritten.merged
    exact sectionNodes_saveGraph hread
  · rw [deploy, h, Outcome.ok_bind, hread]

end Saved

/-- A node that ends the call. -/
def partingGraph : Value :=
  (Graph.ofObjects [[("id", .str "bye"), ("data", .obj [("type", .str "end_call")])]] []).toValue

/-- Saving over a section that stands on its own, with an edit of a setting. -/
def recordedSave : SaveRequest :=
  { previous := .obj [("initial_node", .str "bye"), ("recording", .bool false)]
    edits := .obj [("recording", .bool true)] }

/-- What is saved so is read back. -/
theorem readBack_recordedSave :
    ∃ document saved written, saveGraph .default recordedSave partingGraph = .ok document
      ∧ WrittenAs .default recordedSave partingGraph saved written
      ∧ workflowSection document = written ∧ sectionNodes document = .ok saved := by
  obtain ⟨document, hsave⟩ :
      ∃ document, saveGraph .default recordedSave partingGraph = .ok document := ⟨_, rfl⟩
  obtain ⟨saved, written, hwritten, hiff, hread⟩ :=
    readBack_saveGraph (.inr ⟨[("recording", .bool true)], rfl, rfl⟩) hsave
  have hsection : workflowSection document = written := hiff.mpr fun hno => by cases hno.2
  exact ⟨document, saved, written, hsave, hwritten, hsection, (hread hsection).1⟩

/-- Saving over a section that stands on its own and starts at a node that does
not exist, with an edit that brings a section along. -/
def straySave : SaveRequest :=
  { previous := .obj [("initial_node", .str "zzz")], edits := .obj [("workflow", .obj [])] }

/-- What is saved so is not read back: the section that is found is empty, so
the graph is deployed although the initial node that is saved is missing. -/
theorem captured_straySave :
    ∃ document saved written, saveGraph .default straySave partingGraph = .ok document
      ∧ WrittenAs .default straySave partingGraph saved written
      ∧ workflowSection document = [] ∧ workflowSection document ≠ written
      ∧ deploy .default straySave partingGraph = .ok (.accepted document)
      ∧ ∃ problem rest, problemsOf partingGraph (Fields.get written "initial_node")
        = .ok (problem :: rest) := by
  obtain ⟨document, hsave, hsection, hdeploy⟩ :
      ∃ document, saveGraph .default straySave partingGraph = .ok document
        ∧ workflowSection document = []
        ∧ deploy .default straySave partingGraph = .ok (.accepted document) := ⟨_, rfl, rfl, rfl⟩
  obtain ⟨saved, written, hwritten, _⟩ :=
    exists_writtenAs (.inr ⟨[("workflow", .obj [])], rfl, rfl⟩) hsave
  have hstart : Fields.get written "initial_node" = .str "zzz" :=
    (Except.ok.inj hwritten.start).symm
  refine ⟨document, saved, written, hsave, hwritten, hsection, ?_, hdeploy, ?_⟩
  · -- the section that was saved says where it starts, so it is not empty
    rintro rfl
    rw [hsection] at hstart
    cases hstart
  · rw [hstart]
    exact ⟨_, _, rfl⟩

end CallFlow

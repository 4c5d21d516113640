import CallFlow.Proofs.Config.Merging
import CallFlow.Proofs.Node.FieldLists
import CallFlow.Proofs.Value.Faults

/-!
# Where loading and saving fail

Loading and saving take what they find. Whatever is missing, blank or of another
kind than expected gives way to a default or is passed over, and only three
things are too much for them. Loading has no use for nodes that have no elements
(`Value.isNonzero`), nor for a kind that is a collection (`loadGraph_faultsIff`);
saving has none for actions on entry without elements, on the kinds of nodes
that keep only those (`saveGraph_faultsIff`). Each of these is a fault, and
nothing else is.
-/

namespace CallFlow

/-! ## Loading -/

/-- What a document states as its nodes. -/
def statedNodes (config : Value) : Value := Fields.get (workflowSection config) "nodes"

/-- **Whether a document cannot be loaded**: its nodes have no elements, or one of
them has a kind that is a collection. -/
def CannotLoad (config : Value) : Prop :=
  (statedNodes config).isNonzero = true
    ∨ (statedNodes config).ListsObject fun raw => (Fields.get raw "type").isFilled = true

theorem exists_sectionNodes_iff {config : Value} {raws : List Fields}
    (h : sectionNodes config = .ok raws) (P : Fields → Prop) :
    (∃ raw ∈ raws, P raw) ↔ (statedNodes config).ListsObject P := by
  obtain ⟨items, hitems, h⟩ := Outcome.bind_eq_ok.mp h
  obtain rfl := Except.ok.inj h
  exact Value.exists_objectsAmong_iff hitems P

theorem sectionNodes_faultsIff (config : Value) :
    (sectionNodes config).FaultsIff .wrongKind ((statedNodes config).isNonzero = true) :=
  (Value.elementsOrNone_faultsIff _).bind_of_ok fun _ => ⟨_, rfl⟩

/-- On the default grid an entry is not loaded where its kind is a collection. -/
theorem loadNode_faultsIff (total index : Nat) (raw : Fields) :
    (loadNode .default total index raw).FaultsIff .wrongKind
      ((Fields.get raw "type").isFilled = true) := by
  have hatom : (kindOf raw).isAtom = !(Fields.get raw "type").isFilled :=
    Value.isAtom_orElse _ rfl
  refine ⟨fun h => ?_, fun h => exists_loadNode ?_ (.inl rfl) total index⟩
  · rw [loadNode, if_pos (by rw [hatom, h]; rfl)]
  · simpa [hatom] using h

/-- Entries are not loaded where one of them is not. -/
theorem loadNodes_faultsIff (total index : Nat) (raws : List Fields) :
    (loadNodes .default total index raws).FaultsIff .wrongKind
      (∃ raw ∈ raws, (Fields.get raw "type").isFilled = true) := by
  induction raws generalizing index with
  | nil => exact .of_eq_ok (by simp) rfl
  | cons raw rest ih =>
    refine ((loadNode_faultsIff total index raw).bind fun _ _ =>
      (ih (index + 1)).bind_of_ok fun _ => ⟨_, rfl⟩).congr ?_
    rw [List.exists_mem_cons_iff]

/-- **Where loading fails.** -/
theorem loadGraph_faultsIff (config : Value) :
    (loadGraph .default config).FaultsIff .wrongKind (CannotLoad config) := by
  refine (sectionNodes_faultsIff config).bind fun raws hraws => ?_
  exact ((loadNodes_faultsIff raws.length 0 raws).bind_of_ok fun _ => ⟨_, rfl⟩).congr
    (exists_sectionNodes_iff hraws _)

/-! ## Saving -/

/-- **Whether a node cannot be saved**: it is of a kind of which the actions on
entry are kept alone, and what its actions state for them has no elements. -/
def CannotSave (node : Fields) : Prop :=
  (Fields.get (dataOf node) "type" = .str "api_call"
      ∨ Fields.get (dataOf node) "type" = .str "agent_transfer")
    ∧ ∃ actions, Fields.get (dataOf node) "actions" = .obj actions
      ∧ (Fields.get actions "on_entry").isNonzero = true

/-- Actions on entry without elements are those some actions state. -/
theorem isNonzero_statedOnEntry_iff {data : Fields} :
    (statedOnEntry data).isNonzero = true
      ↔ ∃ actions, Fields.get data "actions" = .obj actions
        ∧ (Fields.get actions "on_entry").isNonzero = true := by
  rw [statedOnEntry]
  cases Fields.get data "actions" with
  | obj actions => simp [Value.fieldsOrNone]
  | _ => simp [Value.fieldsOrNone, Value.isNonzero]

theorem putEntryActions_faultsIff (data out : Fields) :
    (putEntryActions data out).FaultsIff .wrongKind ((statedOnEntry data).isNonzero = true) := by
  rw [putEntryActions, ← statedOnEntry]
  split
  next h => exact (Value.elements_faultsIff h).bind_of_ok fun _ => ⟨_, rfl⟩
  next h => exact .of_eq_ok (mt Value.truthy_of_isNonzero h) rfl

/-- The kind of a node is one other than the standard one just if it is stated. -/
theorem ofName?_kindOf_iff {data : Fields} {kind : NodeKind} (hkind : kind ≠ .standard) :
    NodeKind.ofName? (kindOf data).text = some kind
      ↔ Fields.get data "type" = .str kind.name := by
  constructor
  · intro h
    have hname := kindOf_of_known h
    rw [kindOf, Value.orElse] at hname
    split at hname
    next => exact hname
    next =>
      -- where no kind is stated it is the standard one
      rw [defaultKind, Value.str.injEq] at hname
      exact absurd hname (by cases kind <;> simp_all [NodeKind.name])
  · intro h
    rw [kindOf, h, Value.orElse_of_truthy (by cases kind <;> rfl), Value.text_str,
      NodeKind.ofName?_name]

theorem entryActions_iff {kind : NodeKind} :
    kind.plan.entryActions = true ↔ kind = .apiCall ∨ kind = .agentTransfer := by
  cases kind <;> simp [NodeKind.plan]

/-- **A node's rest is not written where its actions on entry are kept alone and
have no elements.** -/
theorem emitNode_faultsIff (data : Fields) (id transitions : Value) :
    (emitNode data id transitions).FaultsIff .wrongKind
      ((Fields.get data "type" = .str "api_call" ∨ Fields.get data "type" = .str "agent_transfer")
        ∧ (statedOnEntry data).isNonzero = true) := by
  have hapi : NodeKind.ofName? (kindOf data).text = some .apiCall
      ↔ Fields.get data "type" = .str "api_call" := ofName?_kindOf_iff (by decide)
  have htransfer : NodeKind.ofName? (kindOf data).text = some .agentTransfer
      ↔ Fields.get data "type" = .str "agent_transfer" := ofName?_kindOf_iff (by decide)
  rw [← hapi, ← htransfer, emitNode]
  cases NodeKind.ofName? (kindOf data).text with
  | none => exact .of_eq_ok (by simp) rfl
  | some kind =>
    dsimp only
    rw [EmissionPlan.write_eq, Option.some.injEq, Option.some.injEq, ← entryActions_iff]
    split
    next hentry => exact (putEntryActions_faultsIff data _).congr (by simp [hentry])
    next hentry => exact .of_eq_ok (by simp [hentry]) rfl

theorem saveNode_faultsIff (edges : List Fields) (keepPositions : Bool) (node : Fields) :
    (saveNode edges keepPositions node).FaultsIff .wrongKind (CannotSave node) := by
  refine ((emitNode_faultsIff (dataOf node) _ _).bind_of_ok fun _ => ⟨_, rfl⟩).congr ?_
  rw [isNonzero_statedOnEntry_iff, CannotSave]

/-- **Where saving fails**: a graph whose nodes and edges are lists, if they are
there, is not saved where one of its nodes is not. It does not matter what it is
saved over, nor what was edited. -/
theorem saveGraph_faultsIff {settings : Settings} {request : SaveRequest} {fields : Fields}
    (hnodes : (Fields.get fields "nodes").isListOrNull = true)
    (hedges : (Fields.get fields "edges").isListOrNull = true)
    (hedits : AreEdits request.edits) :
    (saveGraph settings request (.obj fields)).FaultsIff .wrongKind
      ((Fields.get fields "nodes").ListsObject CannotSave) := by
  obtain ⟨nodes, hnodes⟩ := Value.exists_elementsOrNone hnodes
  obtain ⟨edges, hedges⟩ := Value.exists_elementsOrNone hedges
  have hsaved : saveNodes (.obj fields) request.keepPositions
      = (objectsAmong nodes).mapM (saveNode (objectsAmong edges) request.keepPositions) := by
    rw [saveNodes, edgesOf, nodesOf, Value.object, Outcome.ok_bind, Outcome.ok_bind, hedges,
      hnodes]
    rfl
  rw [saveGraph_eq_map hedits, hsaved]
  refine (Outcome.FaultsIff.map (.mapM fun node _ => saveNode_faultsIff _ _ node) _).congr ?_
  exact Value.exists_objectsAmong_iff hnodes CannotSave

end CallFlow

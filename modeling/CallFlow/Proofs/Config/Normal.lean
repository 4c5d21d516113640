import CallFlow.Proofs.Config.Saving
import CallFlow.Proofs.Node.Dependence

/-!
# What was saved once is in normal form

A configuration need not be in the form saving gives it. Kinds may be
missing, conditions and priorities may be left to a default, there may be
fields that no node of a kind has, and entries that are no nodes. Loading it
and saving it again without an edit puts it into a *normal form*
(`resaved`), and doing so once is enough: what comes out is the same from
then on, to the order of its fields (`resaved_idempotent`).

Nodes have to have different ids for this. Of two entries with one id each
is saved with the transitions of both, and each time there are more of them.

Each part of a document is saved into its own normal form. A node that was
saved is saved alike (`savedAlike_emitNode`), its transitions are read back
as they were written, and its place is the one stored with it. A section
that was saved names an initial node, and lists its keys in the order in
which they are written.
-/

namespace CallFlow

/-- The document a configuration is saved as when it is loaded and saved over
itself, without edits. -/
def resaved (keepPositions : Bool) (config : Value) : Outcome Value := do
  let g ← loadGraph .default config
  saveGraph .default { previous := config, keepPositions := keepPositions } g.toValue

/-! ## One node -/

section Node

variable {edges edges' : List Fields} {keepPositions : Bool} {node out node' : Fields}

theorem canvasPosition_of_stored (h : Fields.get node' "position" = canvasPosition node) :
    canvasPosition node' = canvasPosition node := by
  rw [canvasPosition, h]
  simp [canvasPosition, Value.fieldsOrNone, Fields.get?]

/-- **What an editor keeps about a node is written again as it was
written.** -/
theorem putMetadata_putMetadata {data emitted : Fields}
    (hemitted : Fields.get? emitted "_metadata" = none)
    (hplace : keepPositions = true → canvasPosition node' = canvasPosition node) :
    putMetadata keepPositions node' (putMetadata keepPositions node data emitted) emitted
      = putMetadata keepPositions node data emitted := by
  cases keepPositions with
  | true =>
    have hread : (Fields.get (Fields.put emitted "_metadata"
        (.obj (Fields.put (Fields.get data "_metadata").fieldsOrNone "position"
          (canvasPosition node)))) "_metadata").fieldsOrNone
        = Fields.put (Fields.get data "_metadata").fieldsOrNone "position"
          (canvasPosition node) := by
      rw [Fields.get_put_self]; rfl
    simp only [putMetadata, if_true]
    rw [hread, hplace rfl, Fields.put_eq_self (Fields.get?_put_self _ _ _)]
  | false =>
    simp only [putMetadata, Bool.false_eq_true, if_false]
    by_cases hnull : Fields.get data "_metadata" = .null
    · have hread : Fields.get emitted "_metadata" = .null := by rw [Fields.get, hemitted]; rfl
      rw [if_pos hnull, if_pos hread]
    · rw [if_neg hnull, Fields.get_put_self, if_neg hnull]

theorem dataOf_of_saveNode (hsave : saveNode edges keepPositions node = .ok out)
    (hloaded : LoadedAs out node') : dataOf node' = out := by
  have hkind : Fields.get? out "type" = some (kindOf out) := by
    obtain ⟨emitted, hemitted, rfl⟩ := saveNode_eq_ok hsave
    rw [kindOf_saveNode hsave, get?_putMetadata _ _ _ _ (by decide),
      get?_emitNode_head hemitted (by decide) (by decide), get?_nodeHead_type]
  rw [hloaded.dataOf_eq, Fields.put_eq_self hkind]

/-- **A node that was saved is saved again as it is**, where no other node
has its id. -/
theorem saveNode_of_saveNode (hd : Fields.distinct (dataOf node) = true)
    (hsave : saveNode edges keepPositions node = .ok out) (hloaded : LoadedAs out node')
    (hstated : outgoing edges' (idOf out) = statedTransitions out) :
    saveNode edges' keepPositions node' = .ok out := by
  have hdata := dataOf_of_saveNode hsave hloaded
  have hid : savedId node' out = savedId node (dataOf node) := by
    rw [← hdata, hloaded.savedId_eq, hloaded.idOf_eq, idOf_saveNode hsave]
  have hlist : outgoing edges' (savedId node (dataOf node)) = statedTransitions out := by
    rw [← idOf_saveNode hsave, hstated]
  have hplace : keepPositions = true → canvasPosition node' = canvasPosition node := by
    intro hkeep
    have hstored := storedPosition_saveNode hsave hkeep
    exact canvasPosition_of_stored (by rw [hloaded.position_eq (by rw [hstored]; rfl), hstored])
  obtain ⟨emitted, hemitted, hout⟩ := saveNode_eq_ok hsave
  have hnone : Fields.get? emitted "_metadata" = none := by
    rw [get?_emitNode_head hemitted (by decide) (by decide),
      get?_nodeHead_of_ne _ _ (by decide) (by decide) (by decide)]
  have halike : SavedAlike (dataOf node) out := by
    refine (savedAlike_emitNode hd hemitted).trans ?_
    rw [hout, putMetadata]
    split
    · exact savedAlike_put _ (by decide) (by decide) (by decide) _
    · split
      · exact .refl _
      · exact savedAlike_put _ (by decide) (by decide) (by decide) _
  -- the transitions are read back as they were written, or they are not written at all
  have hemit : emitNode out (.str (savedId node (dataOf node)))
      (.list ((statedTransitions out).map Transition.toItem)) = .ok emitted := by
    rw [halike.emitNode_eq, ← hemitted, statedTransitions_saveNode hsave]
    cases hkeeps : keepsTransitions (dataOf node) with
    | true => rfl
    | false => exact emitNode_of_not_keepsTransitions hkeeps _ _ _
  have hunfold : saveNode edges' keepPositions node' = (do
      return putMetadata keepPositions node' (dataOf node') (← emitNode (dataOf node')
        (.str (savedId node' (dataOf node')))
        (.list ((outgoing edges' (savedId node' (dataOf node'))).map Transition.toItem)))) := rfl
  rw [hunfold, hdata, hid, hlist, hemit, Outcome.ok_bind, Outcome.pure_eq]
  refine congrArg Except.ok ?_
  conv_lhs => rw [hout]
  rw [putMetadata_putMetadata hnone hplace, hout]

end Node

/-! ## The document -/

/-- **Loading a configuration and saving it over itself once is enough**: what
comes out is loaded and saved again as it is, to the order of its fields. -/
theorem resaved_idempotent {keepPositions : Bool} {config document : Value} {raws : List Fields}
    (hwf : config.wellFormed = true) (hraws : sectionNodes config = .ok raws)
    (hids : (raws.map idOf).Nodup) (h : resaved keepPositions config = .ok document) :
    resaved keepPositions document = .ok document := by
  obtain ⟨g, hload, hsave⟩ := Outcome.bind_eq_ok.mp h
  obtain ⟨raws', nodes, hraws', rfl, hall⟩ := loadGraph_eq_ok hload
  obtain rfl := Except.ok.inj (hraws.symm.trans hraws')
  rw [saveGraph_null] at hsave
  obtain ⟨saved, hsaved, rfl⟩ := Outcome.map_eq_ok.mp hsave
  replace hsaved := Outcome.mapM_eq_ok.mp hsaved
  have hsection := sectionNodes_savedDocument .default config saved
  have hboth := forall₂_comp hall hsaved
  have hkinds : ∀ out ∈ saved, (kindOf out).isAtom = true := by
    intro out hout
    obtain ⟨raw, hraw, node, _, hnode, hsave⟩ := exists_of_mem_right hboth hout
    rw [kindOf_saveNode hsave, hnode.kindOf_dataOf]
    exact isAtom_of_loadGraph hload hraws raw hraw
  have hidsSaved : saved.map idOf = raws.map idOf := by
    refine map_eq_map_of_forall₂ (hboth.imp ?_)
    rintro raw out ⟨node, _, hnode, hsave⟩
    rw [idOf_saveNode hsave, hnode.savedId_eq, hnode.idOf_eq]
  obtain ⟨g', hload'⟩ := exists_loadGraph hsection hkinds (.inl rfl)
  obtain ⟨saved', nodes', hsaved', rfl, hloaded⟩ := loadGraph_eq_ok hload'
  obtain rfl := Except.ok.inj (hsection.symm.trans hsaved')
  have hagain : List.Forall₂ (fun node' out =>
      saveNode (loadEdges saved (some [])) keepPositions node' = .ok out) nodes' saved := by
    refine (forall₂_imp_of_mem hloaded fun out hout node' hnode' => ?_).flip
    obtain ⟨raw, hraw, node, _, hnode, hsave⟩ := exists_of_mem_right hboth hout
    refine saveNode_of_saveNode ?_ hsave hnode'
      (outgoing_loadEdges_of_nodup (hidsSaved ▸ hids) (some []) hout)
    rw [hnode.dataOf_eq]
    exact Fields.distinct_put
      (Value.wellFormed_obj.mp (wellFormed_of_sectionNodes hwf hraws raw hraw)).1 _ _
  have hd := (Value.wellFormed_obj.mp (wellFormed_workflowSection hwf)).1
  rw [resaved, hload', Outcome.ok_bind, saveGraph_null, Outcome.mapM_eq_ok.mpr hagain]
  exact congrArg Except.ok (savedDocument_savedDocument .default saved hd)

/-- A configuration far from its normal form: it stands on its own, without a
section, one node has neither a kind nor an id, conditions and priorities
are missing, a greeting is kept on entry with nothing in it, and there is an
entry that is no node. -/
def looseConfig : Value :=
  .obj [("voice", .str "alto"), ("nodes", .list [
    .obj [("transitions", .list [.int 7, .obj [("target", .str "b"), ("condition", .null)]]),
      ("on_entry", .obj []), ("extra", .bool true)],
    .null,
    .obj [("id", .str "b"), ("type", .str "end_call"), ("transitions", .list [.null]),
      ("_metadata", .obj [("position", .obj [])])]])]

/-- Saving that configuration over itself changes it, and then no more. -/
theorem resaved_idempotent_looseConfig :
    ∃ document, resaved true looseConfig = .ok document ∧ document ≠ looseConfig
      ∧ resaved true document = .ok document := by
  obtain ⟨document, h, hne⟩ : ∃ document, resaved true looseConfig = .ok document
      ∧ document ≠ looseConfig := ⟨_, rfl, by decide⟩
  obtain ⟨raws, hraws, hids⟩ : ∃ raws, sectionNodes looseConfig = .ok raws
      ∧ (raws.map idOf).Nodup := ⟨_, rfl, by decide⟩
  exact ⟨document, h, hne, resaved_idempotent (by decide) hraws hids h⟩

end CallFlow

import CallFlow.Proofs.Config.Saving
import CallFlow.Proofs.Value.Likeness

/-!
# Edges that say the same are saved alike

Of its edges a graph saves what they say, node by node, and nothing else.
So if those of one graph and those of another say the same of every node,
the two graphs of the same nodes are saved as documents that say the same,
or neither is saved (`saveGraph_alike`). What the edges are called, and how
those of different nodes are mixed, does not matter.

The argument follows a document as it is written, from the transitions of a
node to the section in its place: each step writes the same fields under the
same keys, and all values but the transitions are the very same.
-/

namespace CallFlow

/-! ## Transitions -/

/-- Whether two transitions say the same: their priorities may be written in
different ways. -/
structure Transition.Alike (t u : Transition) : Prop where
  /-- They have one condition. -/
  condition : u.condition = t.condition
  /-- They have one target. -/
  target : u.target = t.target
  /-- Their priorities say the same. -/
  priority : t.priority.saysSame u.priority = true

theorem Transition.Alike.refl {t : Transition} (h : t.priority.wellFormed = true) : t.Alike t :=
  ⟨rfl, rfl, Value.saysSame_self _ h⟩

/-- An item restates a transition if it has its condition and its target, and
a priority that says the same. -/
theorem restates_toItem_iff {t : Transition} {item : Value} :
    restates t.toItem item = true ↔ ∃ fields, item = .obj fields
      ∧ Fields.get fields "condition" = .str t.condition
      ∧ Fields.get fields "target" = .str t.target
      ∧ t.priority.saysSame (Fields.get fields "priority") = true := by
  have hstr : ∀ {s : String} {v : Value}, (Value.str s).saysSame v = true ↔ v = .str s := by
    refine ⟨Value.eq_str_of_saysSame, ?_⟩
    rintro rfl
    exact Value.saysSame_self _ rfl
  cases item with
  | obj fields =>
    have hread : restates t.toItem (.obj fields)
        = ((Value.str t.target).saysSame (Fields.get fields "target")
          && (Value.str t.condition).saysSame (Fields.get fields "condition")
          && t.priority.saysSame (Fields.get fields "priority")) := by
      simp [restates, Transition.toItem, Fields.get, Fields.get?, Bool.and_assoc]
    rw [hread, Bool.and_eq_true, Bool.and_eq_true, hstr, hstr]
    constructor
    · rintro ⟨⟨htarget, hcondition⟩, hpriority⟩
      exact ⟨fields, rfl, hcondition, htarget, hpriority⟩
    · rintro ⟨_, hobj, hcondition, htarget, hpriority⟩
      obtain rfl := Value.obj.inj hobj
      exact ⟨⟨htarget, hcondition⟩, hpriority⟩
  | _ => simp [restates, Transition.toItem]

/-- Transitions that say the same are written as items that say the same. -/
theorem Transition.Alike.toItem {t u : Transition} (h : t.Alike u) :
    t.toItem.saysSame u.toItem = true := by
  obtain ⟨_, _, p⟩ := t
  obtain ⟨c, g, q⟩ := u
  obtain ⟨rfl, rfl, hpriority⟩ := h
  have hstr : ∀ s : String, (Value.str s).saysSame (.str s) = true :=
    fun s => Value.saysSame_self _ rfl
  exact Value.saysSame_obj
    (.cons ⟨rfl, hstr c⟩ (.cons ⟨rfl, hstr g⟩ (.cons ⟨rfl, hpriority⟩ .nil))) rfl

theorem saysSame_toItems {ts us : List Transition} (h : List.Forall₂ Transition.Alike ts us) :
    (Value.list (ts.map Transition.toItem)).saysSame (.list (us.map Transition.toItem)) = true :=
  Value.saysSame_list (List.forall₂_map_left_iff.mpr
    (List.forall₂_map_right_iff.mpr (h.imp fun _ _ htu => htu.toItem)))

/-! ## One node -/

section Node

variable {data out out' : Fields}

/-- Copying well-formed fields keeps what is written alike. -/
theorem Fields.Alike.copyFields (h : Fields.Alike out out') (rules : List (String × Presence))
    (hdata : fieldsWellFormed data = true) :
    Fields.Alike (copyFields rules data out) (copyFields rules data out') := by
  induction rules generalizing out out' with
  | nil => exact h
  | cons rule rest ih =>
    rw [copyFields_cons, copyFields_cons]
    refine ih ?_
    cases hread : Fields.get? data rule.1 with
    | none => exact h
    | some value =>
      have hvalue : value.wellFormed = true := by
        have := Fields.wellFormed_get hdata rule.1
        rwa [Fields.get, hread] at this
      dsimp only
      split
      · exact h.put _ (Value.saysSame_self value hvalue)
      · exact h

/-- Writing lists that say the same keeps what is written alike. -/
theorem Fields.Alike.putTransitions (h : Fields.Alike out out') {ts us : List Transition}
    (hall : List.Forall₂ Transition.Alike ts us) :
    Fields.Alike (putTransitions (.list (ts.map Transition.toItem)) out)
      (putTransitions (.list (us.map Transition.toItem)) out') := by
  have htruthy : (Value.list (us.map Transition.toItem)).truthy
      = (Value.list (ts.map Transition.toItem)).truthy := by
    cases hall <;> rfl
  rw [CallFlow.putTransitions, CallFlow.putTransitions, htruthy]
  split
  · exact h.put _ (saysSame_toItems hall)
  · exact h

/-- Writing the actions on entry keeps what is written alike. -/
theorem Fields.Alike.putEntryActions (h : Fields.Alike out out')
    (hdata : fieldsWellFormed data = true) :
    Outcome.Alike Fields.Alike (putEntryActions data out) (putEntryActions data out') := by
  have hstated : (statedOnEntry data).wellFormed = true :=
    Fields.wellFormed_get
      (Value.fieldsWellFormed_fieldsOrNone (Fields.wellFormed_get hdata "actions")) "on_entry"
  rw [CallFlow.putEntryActions, CallFlow.putEntryActions, ← statedOnEntry]
  split
  · have hself : Outcome.Alike (fun xs ys : List Value => ys = xs ∧ ∀ v ∈ xs, v.wellFormed = true)
        (statedOnEntry data).elements (statedOnEntry data).elements :=
      .refl _ fun items hitems => ⟨rfl, Value.wellFormed_of_elements hstated hitems⟩
    refine hself.bind fun xs ys hxs => .ok (h.put _ ?_)
    obtain ⟨rfl, hwf⟩ := hxs
    refine Value.saysSame_self _ (Value.wellFormed_obj.mpr ⟨rfl, fun f hf => ?_⟩)
    rw [List.mem_singleton.mp hf]
    exact Value.wellFormed_list.mpr hwf
  · exact .ok h

/-- What every saved node starts with is well formed. -/
theorem wellFormed_nodeHead (hdata : fieldsWellFormed data = true) (id : String) :
    fieldsWellFormed (nodeHead data (.str id)) = true := by
  have hkind : (kindOf data).wellFormed = true :=
    Value.wellFormed_orElse (Fields.wellFormed_get hdata _) rfl
  rw [nodeHead, fieldsWellFormed, fieldsWellFormed, hkind]
  split
  · rfl
  · simp [fieldsWellFormed, Fields.wellFormed_get hdata, Value.wellFormed]

/-- **From transitions that say the same nodes are saved that are alike.** -/
theorem emitNode_alike (hdata : fieldsWellFormed data = true) (id : String)
    {ts us : List Transition} (hall : List.Forall₂ Transition.Alike ts us) :
    Outcome.Alike Fields.Alike (emitNode data (.str id) (.list (ts.map Transition.toItem)))
      (emitNode data (.str id) (.list (us.map Transition.toItem))) := by
  have hhead := Fields.Alike.refl (wellFormed_nodeHead hdata id)
  rw [emitNode, emitNode]
  split
  next kind _ =>
    rw [EmissionPlan.write_eq, EmissionPlan.write_eq]
    have hbody : Fields.Alike
        (kind.plan.body data (.list (ts.map Transition.toItem)) (nodeHead data (.str id)))
        (kind.plan.body data (.list (us.map Transition.toItem)) (nodeHead data (.str id))) := by
      rw [EmissionPlan.body, EmissionPlan.body]
      refine Fields.Alike.copyFields ?_ _ hdata
      split
      · exact (hhead.copyFields _ hdata).putTransitions hall
      · exact hhead.copyFields _ hdata
    split
    · exact hbody.putEntryActions hdata
    · exact .ok hbody
  next =>
    refine .ok (Fields.Alike.putTransitions (Fields.Alike.refl ?_) hall)
    exact Fields.wellFormed_overlay (wellFormed_nodeHead hdata id)
      (fieldsWellFormed_iff.mpr fun f hf =>
        fieldsWellFormed_iff.mp hdata f (List.mem_of_mem_filter hf))

/-- **A node is saved alike from edges that say the same of it.** -/
theorem saveNode_alike {edges edges' : List Fields} (keepPositions : Bool) {node : Fields}
    (hnode : (Value.obj node).wellFormed = true)
    (hsame : ∀ id, List.Forall₂ Transition.Alike (outgoing edges id) (outgoing edges' id)) :
    Outcome.Alike Fields.Alike (saveNode edges keepPositions node)
      (saveNode edges' keepPositions node) := by
  have hget : ∀ key, (Fields.get node key).wellFormed = true :=
    Fields.wellFormed_get (Value.wellFormed_obj_iff.mp hnode).2
  have hdata := Value.fieldsWellFormed_fieldsOrNone (hget "data")
  refine (emitNode_alike hdata (savedId node (dataOf node)) (hsame _)).bind fun out out' hout =>
    .ok ?_
  have hmetadata : (Fields.get (dataOf node) "_metadata").wellFormed = true :=
    Fields.wellFormed_get hdata _
  rw [putMetadata, putMetadata]
  split
  · have hplace : (canvasPosition node).wellFormed = true := by
      have hread : ∀ key : String,
          ((Fields.get? (Fields.get node "position").fieldsOrNone key).getD (.int 0)).wellFormed
            = true := by
        intro key
        cases hkey : Fields.get? (Fields.get node "position").fieldsOrNone key with
        | none => rfl
        | some value =>
          have := Fields.wellFormed_get (Value.fieldsWellFormed_fieldsOrNone (hget "position")) key
          rwa [Fields.get, hkey] at this
      exact Value.wellFormed_obj_iff.mpr ⟨rfl, by simp [fieldsWellFormed, hread]⟩
    exact hout.put _ (Value.saysSame_self _ (Value.wellFormed_obj_put
      (Value.wellFormed_obj_fieldsOrNone hmetadata) _ hplace))
  · split
    · exact hout
    · exact hout.put _ (Value.saysSame_self _ hmetadata)

end Node

/-! ## The settings -/

section Settings

variable {settings : Settings} {previous : Fields} {edits : Value}

theorem mergeSettings_congr {saved saved' : List Fields}
    (hids : saved'.map idOf = saved.map idOf) :
    mergeSettings settings previous (.list (saved'.map Value.obj)) edits
      = mergeSettings settings previous (.list (saved.map Value.obj)) edits := by
  have hfirst : firstIdOf saved' = firstIdOf saved := by
    cases saved <;> cases saved' <;> simp_all [firstIdOf]
  simp only [mergeSettings, initialNode, firstId_map_obj, hfirst]

/-- The settings that are kept of a well-formed section are well formed. -/
theorem wellFormed_keptSettings (hprevious : fieldsWellFormed previous = true) {start : Value}
    (hstart : start.wellFormed = true) :
    (Value.obj (keptSettings previous start)).wellFormed = true := by
  have hfold : ∀ (keys : List Key) (out : Fields), fieldsWellFormed out = true →
      fieldsWellFormed (keys.foldl (fun out k => Fields.put out k (Fields.get previous k)) out)
        = true := by
    intro keys
    induction keys with
    | nil => exact fun out hout => hout
    | cons k rest ih =>
      exact fun out hout => ih _ (Fields.wellFormed_put hout k (Fields.wellFormed_get hprevious k))
  refine Value.wellFormed_obj_iff.mpr ⟨distinct_keptSettings previous start, hfold _ _ ?_⟩
  rw [fieldsWellFormed, hstart]
  rfl

/-- Laying well-formed edits over settings keeps them well formed. -/
theorem wellFormed_foldl_applyEdit {changes out : Fields}
    (hchanges : fieldsWellFormed changes = true) (hout : (Value.obj out).wellFormed = true) :
    (Value.obj (changes.foldl applyEdit out)).wellFormed = true := by
  induction changes generalizing out with
  | nil => exact hout
  | cons c rest ih =>
    rw [fieldsWellFormed, Bool.and_eq_true] at hchanges
    refine ih hchanges.2 ?_
    rw [applyEdit]
    split
    · exact Value.wellFormed_obj_erase hout c.1
    · exact Value.wellFormed_obj_put hout c.1 hchanges.1

/-- **The settings of a section that is saved are well formed.** -/
theorem wellFormed_mergeSettings {saved : List Fields} {workflow : Fields}
    (hdefault : settings.defaultInitialNode.wellFormed = true)
    (hprevious : fieldsWellFormed previous = true) (hedits : edits.wellFormed = true)
    (h : mergeSettings settings previous (.list (saved.map Value.obj)) edits = .ok workflow) :
    (Value.obj workflow).wellFormed = true := by
  obtain ⟨changes, start, hchanges, hstart, rfl⟩ := mergeSettings_eq_ok h
  replace hchanges := Value.wellFormed_asFields (Value.wellFormed_orElse hedits rfl) hchanges
  have hstartwf : start.wellFormed = true := by
    rw [initialNode, firstId_map_obj] at hstart
    split at hstart
    · obtain rfl := Except.ok.inj hstart
      exact Value.wellFormed_orElse (Fields.wellFormed_get hchanges _)
        (Fields.wellFormed_get hprevious _)
    · obtain rfl := Except.ok.inj hstart
      exact Value.wellFormed_orElse rfl hdefault
  exact wellFormed_foldl_applyEdit (fieldsWellFormed_iff.mpr fun f hf =>
    fieldsWellFormed_iff.mp hchanges f (List.mem_of_mem_filter hf))
    (wellFormed_keptSettings hprevious hstartwf)

end Settings

/-! ## The document -/

/-- Sections that are alike are put into a document alike. -/
theorem saysSame_replaceSection {previous : Value} {workflow workflow' : Fields}
    (hprevious : previous.wellFormed = true) (h : Fields.Alike workflow workflow')
    (hd : Fields.distinct workflow' = true) :
    (replaceSection previous workflow).saysSame (replaceSection previous workflow') = true := by
  have hsection := Value.saysSame_obj h hd
  have hwrap : ∀ fields : Fields, (Value.obj fields).wellFormed = true →
      (Value.obj (Fields.put fields sectionKey (.obj workflow))).saysSame
        (.obj (Fields.put fields sectionKey (.obj workflow'))) = true := by
    intro fields hfields
    obtain ⟨hdistinct, hwf⟩ := Value.wellFormed_obj_iff.mp hfields
    exact Value.saysSame_obj ((Fields.Alike.refl hwf).put _ hsection)
      (Fields.distinct_put hdistinct _ _)
  cases previous with
  | obj fields =>
    rw [replaceSection, replaceSection]
    split
    · exact hwrap fields hprevious
    · split
      · exact hwrap [] rfl
      · exact hsection
  | _ => exact hwrap [] rfl

/-- **Graphs of the same nodes whose edges say the same of every node are
saved as documents that say the same**, or neither is saved. -/
theorem saveGraph_alike {settings : Settings} {request : SaveRequest}
    {nodes edges edges' : List Fields}
    (hnodes : ∀ node ∈ nodes, (Value.obj node).wellFormed = true)
    (hdefault : settings.defaultInitialNode.wellFormed = true)
    (hprevious : request.previous.wellFormed = true) (hedits : request.edits.wellFormed = true)
    (hsame : ∀ id, List.Forall₂ Transition.Alike (outgoing edges id) (outgoing edges' id)) :
    Outcome.Alike (fun document document' => document.saysSame document' = true)
      (saveGraph settings request (Graph.ofObjects nodes edges).toValue)
      (saveGraph settings request (Graph.ofObjects nodes edges').toValue) := by
  have hall : Outcome.Alike (List.Forall₂ fun out out' => Fields.Alike out out'
      ∧ Fields.distinct out' = true ∧ idOf out' = idOf out)
      (nodes.mapM (saveNode edges request.keepPositions))
      (nodes.mapM (saveNode edges' request.keepPositions)) := by
    refine .mapM (List.forall₂_same.mpr fun node hnode => ?_)
    refine (saveNode_alike request.keepPositions (hnodes node hnode) hsame).imp ?_
    intro out out' hout hout' halike
    exact ⟨halike, distinct_saveNode hout', by rw [idOf_saveNode hout', idOf_saveNode hout]⟩
  rw [saveGraph, saveGraph, saveNodes_ofObjects, saveNodes_ofObjects]
  refine hall.bind fun saved saved' hsaved => ?_
  have hids : saved'.map idOf = saved.map idOf :=
    map_eq_map_of_forall₂ (hsaved.imp fun _ _ h => h.2.2)
  have hlists : (Value.list (saved.map Value.obj)).saysSame (.list (saved'.map Value.obj)) = true :=
    Value.saysSame_list (List.forall₂_map_left_iff.mpr (List.forall₂_map_right_iff.mpr
      (hsaved.imp fun _ _ h => Value.saysSame_obj h.1 h.2.1)))
  dsimp only
  rw [mergeSettings_congr hids]
  have hself : Outcome.Alike (fun workflow workflow' : Fields => workflow' = workflow
        ∧ (Value.obj workflow).wellFormed = true)
      (mergeSettings settings (workflowSection request.previous) (.list (saved.map Value.obj))
        request.edits)
      (mergeSettings settings (workflowSection request.previous) (.list (saved.map Value.obj))
        request.edits) :=
    .refl _ fun workflow hworkflow => ⟨rfl, wellFormed_mergeSettings hdefault
      (Value.wellFormed_obj_iff.mp (wellFormed_workflowSection hprevious)).2 hedits hworkflow⟩
  refine hself.bind fun workflow _ hworkflow => .ok ?_
  obtain ⟨rfl, hworkflow⟩ := hworkflow
  obtain ⟨hdistinct, hwf⟩ := Value.wellFormed_obj_iff.mp hworkflow
  exact saysSame_replaceSection hprevious ((Fields.Alike.refl hwf).put _ hlists)
    (Fields.distinct_put hdistinct _ _)

end CallFlow

import CallFlow.Proofs.Config.Loading
import CallFlow.Proofs.Config.Saving
import CallFlow.Proofs.Value.Reordered

/-!
# Saving what was loaded

A configuration is *canonical* if nothing in it would be left out or filled
in by saving: no field a node's kind knows nothing of, no prompt that is
blank, no condition or priority left to a default. A canonical configuration
that is loaded and saved over itself comes back as it was, up to the order
of its fields (`reordered_save_load`).

The argument goes key by key, at each of three levels. A transition is read
off its item, written as an edge, and collected again for its node, since no
other node has the same id. A node is saved with its own data, which are its
entry. A section is saved with its own settings, since none was edited.
-/

namespace CallFlow

/-! ## Canonical configurations -/

/-- **An item of a list of transitions as it is saved**: a condition that
says something, a target, a priority that is `0` or says something, and
nothing else. -/
structure CanonicalItem (item : Fields) : Prop where
  /-- There is nothing else. -/
  keys : ∀ f ∈ item, f.1 ∈ (["condition", "target", "priority"] : List Key)
  /-- The condition is a text. -/
  condition : (Fields.get item "condition").isText = true
  /-- The condition says something. -/
  stated : (Fields.get item "condition").truthy = true
  /-- The target is a text. -/
  target : (Fields.get item "target").isText = true
  /-- The priority is `0` or says something. -/
  priority : Fields.get item "priority" = .int 0 ∨ (Fields.get item "priority").truthy = true

/-- Whether a value is a list of actions on entry and nothing else. -/
def isEntryActions : Value → Bool
  | .obj [(key, .list (_ :: _))] => key = "on_entry"
  | _ => false

/-- A list of actions on entry is one that names an action. -/
theorem eq_of_isEntryActions {value : Value} (h : isEntryActions value = true) :
    ∃ item items, value = .obj [("on_entry", .list (item :: items))] := by
  unfold isEntryActions at h
  split at h
  next key item items =>
    obtain rfl := of_decide_eq_true h
    exact ⟨item, items, rfl⟩
  next => exact absurd h Bool.false_ne_true

/-- Whether a field is one that a node of a kind is saved with. -/
def NodeKind.admits (kind : NodeKind) (field : Key × Value) : Bool :=
  kind.plan.fields.any (fun rule => field.1 = rule.1 && rule.2.keeps field.2)
    || (kind.plan.entryActions && field.1 = "actions" && isEntryActions field.2)

/-- **A node as it is saved.** -/
structure CanonicalNode (raw : Fields) : Prop where
  /-- The id is a text. -/
  id : (Fields.get raw "id").isText = true
  /-- The kind is a text. -/
  kind : (Fields.get raw "type").isText = true
  /-- The kind says something. -/
  kindStated : (Fields.get raw "type").truthy = true
  /-- A name that is there is not null. -/
  name : Fields.get? raw "name" ≠ some .null
  /-- What an editor keeps about the node is not null. -/
  metadata : Fields.get? raw "_metadata" ≠ some .null
  /-- A node of a known kind has the fields of its kind and no others. -/
  fields : ∀ kind, NodeKind.ofName? (kindOf raw).text = some kind →
    ∀ f ∈ raw, f.1 ∈ ownKeys ∨ kind.admits f = true
  /-- Transitions are there where the call can go on and there are some. -/
  transitions : ∀ value, Fields.get? raw "transitions" = some value →
    keepsTransitions raw = true ∧ ∃ items : List Fields, value = .list (items.map Value.obj)
      ∧ items ≠ [] ∧ ∀ item ∈ items, CanonicalItem item

/-- **A configuration as it is saved.** -/
structure Canonical (config : Value) : Prop where
  /-- No object has two fields under one key. -/
  wellFormed : config.wellFormed = true
  /-- The configuration is an object that is not empty. -/
  document : ∃ fields, config = .obj fields ∧ fields ≠ []
  /-- The section names an initial node. -/
  initialNode : (Fields.get (workflowSection config) "initial_node").truthy = true
  /-- The section lists nodes with different ids. -/
  nodes : ∃ raws : List Fields, Fields.get (workflowSection config) "nodes"
      = .list (raws.map Value.obj) ∧ (raws.map idOf).Nodup ∧ ∀ raw ∈ raws, CanonicalNode raw

/-! ## Transitions -/

/-- **An item is written as it was read**, up to the order of its fields. -/
theorem CanonicalItem.reordered {item : Fields} (h : CanonicalItem item)
    (hd : Fields.distinct item = true) :
    (Transition.ofItem item).toItem.Reordered (.obj item) := by
  obtain ⟨condition, hcondition⟩ := Value.eq_str_of_isText h.condition
  obtain ⟨target, htarget⟩ := Value.eq_str_of_isText h.target
  have hprio : (Fields.get item "priority").orElse defaultPriority
      = Fields.get item "priority" := by
    rcases h.priority with hzero | hstated
    · rw [hzero]
      rfl
    · exact Value.orElse_of_truthy hstated _
  have hne : Fields.get item "priority" ≠ .null := by
    intro hnull
    rcases h.priority with hzero | hstated
    · rw [hnull] at hzero
      cases hzero
    · rw [hnull] at hstated
      cases hstated
  have hcond : (Fields.get item "condition").textOr defaultCondition = condition := by
    rw [Value.textOr, if_pos h.stated, hcondition, Value.text_str]
  rw [Transition.toItem, Transition.ofItem, hcond, htarget, Value.idText_str, hprio]
  -- key by key: the three that are written, and that there is no other on either side
  refine .of_get?_eq rfl hd fun key => ?_
  by_cases hc : key = "condition"
  · rw [hc, Fields.get?_of_get hcondition (by simp)]
    simp [Fields.get?]
  · by_cases ht : key = "target"
    · rw [ht, Fields.get?_of_get htarget (by simp)]
      simp [Fields.get?]
    · by_cases hp : key = "priority"
      · rw [hp, Fields.get?_of_get rfl hne]
        simp [Fields.get?]
      · have hother : ∀ k ∈ (["condition", "target", "priority"] : List Key),
            k.same key = false := by
          intro k hk
          by_contra hsame
          rw [Bool.not_eq_false] at hsame
          simp only [List.mem_cons, List.not_mem_nil, or_false] at hk
          rcases hk with rfl | rfl | rfl
          · exact hc (Key.text_same_iff.mp hsame)
          · exact ht (Key.text_same_iff.mp hsame)
          · exact hp (Key.text_same_iff.mp hsame)
        rw [Fields.get?_eq_none_iff.mpr fun f hf => hother f.1 (h.keys f hf),
          Fields.get?_eq_none_iff]
        intro f hf
        refine hother f.1 ?_
        simp only [List.mem_cons, List.not_mem_nil, or_false] at hf
        rcases hf with rfl | rfl | rfl <;> simp

/-- **The list of a canonical node is written as it was read.** -/
theorem CanonicalNode.reordered_transitions {raw : Fields} (h : CanonicalNode raw)
    (hwf : fieldsWellFormed raw = true) :
    Option.Rel Value.Reordered
      (if keepsTransitions raw && !(statedTransitions raw).isEmpty then
        some (.list ((statedTransitions raw).map Transition.toItem)) else none)
      (Fields.get? raw "transitions") := by
  cases hread : Fields.get? raw "transitions" with
  | none =>
    have hitems : transitionItems raw = [] := by rw [transitionItems, Fields.get, hread]; rfl
    rw [statedTransitions, hitems]
    simp [objectsAmong]
  | some value =>
    obtain ⟨hkeeps, items, rfl, hne, hitems⟩ := h.transitions value hread
    have hstated : statedTransitions raw = items.map Transition.ofItem := by
      rw [statedTransitions, transitionItems, Fields.get, hread, Option.getD_some]
      exact congrArg (List.map Transition.ofItem) (objectsAmong_map_obj items)
    have hlist := Fields.wellFormed_get hwf "transitions"
    rw [Fields.get, hread, Option.getD_some, Value.wellFormed_list] at hlist
    have hsome : (statedTransitions raw).isEmpty = false := by
      rw [hstated, List.isEmpty_map]
      simpa using hne
    rw [hkeeps, hsome, hstated]
    refine .some (.list ?_)
    rw [List.map_map, List.forall₂_map_left_iff, List.forall₂_map_right_iff, List.forall₂_same]
    intro item hitem
    have hwell := hlist (.obj item) (List.mem_map_of_mem hitem)
    exact (hitems item hitem).reordered (Value.wellFormed_obj.mp hwell).1

/-! ## Nodes -/

section Node

variable {raw : Fields} (h : CanonicalNode raw)

include h

theorem CanonicalNode.get?_type : Fields.get? raw "type" = some (kindOf raw) := by
  rw [kindOf, Value.orElse_of_truthy h.kindStated]
  exact Fields.get?_of_truthy h.kindStated

theorem CanonicalNode.get?_id : Fields.get? raw "id" = some (.str (idOf raw)) := by
  obtain ⟨id, hid⟩ := Value.eq_str_of_isText h.id
  rw [idOf, hid, Value.idText_str]
  exact Fields.get?_of_get hid (by simp)

/-- The actions of a canonical node of a kind that keeps those on entry are
just these. -/
theorem CanonicalNode.isEntryActions_of_read {kind : NodeKind}
    (hkind : NodeKind.ofName? (kindOf raw).text = some kind)
    (hentry : kind.plan.entryActions = true) {value : Value}
    (hread : Fields.get? raw "actions" = some value) : isEntryActions value = true := by
  have hforeign : Key.text "actions" ∉ ownKeys := by decide
  obtain ⟨k, hmem, hk⟩ := Fields.mem_of_get? hread
  obtain rfl := Key.same_text.mp hk
  rcases h.fields kind hkind _ hmem with hown | hadmits
  · exact absurd hown hforeign
  · rw [NodeKind.admits, Bool.or_eq_true, List.any_eq_true] at hadmits
    rcases hadmits with ⟨rule, hrule, hcopied⟩ | hactions
    · rw [Bool.and_eq_true, decide_eq_true_eq] at hcopied
      exact absurd hcopied.1.symm (NodeKind.rule_ne_actions hentry rule hrule)
    · rw [Bool.and_eq_true] at hactions
      exact hactions.2

/-- **Of the actions of a canonical node everything is written**, where only
those on entry are. -/
theorem CanonicalNode.putEntryActions_eq {kind : NodeKind}
    (hkind : NodeKind.ofName? (kindOf raw).text = some kind)
    (hentry : kind.plan.entryActions = true) (body : Fields) :
    ∃ out, putEntryActions raw body = .ok out
      ∧ Fields.get? out "actions"
        = (Fields.get? raw "actions").or (Fields.get? body "actions") := by
  cases hread : Fields.get? raw "actions" with
  | none =>
    have hget : Fields.get raw "actions" = .null := by rw [Fields.get, hread]; rfl
    refine ⟨body, ?_, rfl⟩
    rw [putEntryActions, hget]
    rfl
  | some value =>
    have hget : Fields.get raw "actions" = value := by rw [Fields.get, hread]; rfl
    obtain ⟨item, items, rfl⟩ :=
      eq_of_isEntryActions (h.isEntryActions_of_read hkind hentry hread)
    refine ⟨Fields.put body "actions" (.obj [("on_entry", .list (item :: items))]), ?_, ?_⟩
    · rw [putEntryActions, hget]
      rfl
    · rw [Fields.get?_put_self, Option.some_or]

/-- A field of a canonical node is one that its plan copies, unless it is one
a node has of its own or its actions on entry. -/
theorem CanonicalNode.copiesKey_of_read {kind : NodeKind}
    (hkind : NodeKind.ofName? (kindOf raw).text = some kind) {key : Key} (hkey : key ∉ ownKeys)
    (hactions : kind.plan.entryActions = true → key ≠ "actions")
    (hread : Fields.get? raw key ≠ none) : copiesKey kind.plan.fields raw key = true := by
  obtain ⟨value, hvalue⟩ := Option.ne_none_iff_exists'.mp hread
  obtain ⟨k, hmem, hk⟩ := Fields.mem_of_get? hvalue
  have hk' : key.same k = true := by rwa [Key.same_comm]
  rcases h.fields kind hkind _ hmem with hown | hadmits
  · exact absurd (Key.eq_of_same_of_isText (isText_of_mem_ownKeys k hown) hk' ▸ hown) hkey
  · rw [NodeKind.admits, Bool.or_eq_true, List.any_eq_true] at hadmits
    rcases hadmits with ⟨rule, hrule, hcopied⟩ | hentry
    · rw [Bool.and_eq_true, decide_eq_true_eq] at hcopied
      obtain ⟨rfl, hkeeps⟩ := hcopied
      refine List.any_eq_true.mpr ⟨rule, hrule, ?_⟩
      rw [writesUnder, hk, Fields.get?_congr raw hk, hvalue]
      exact hkeeps
    · rw [Bool.and_eq_true, Bool.and_eq_true, decide_eq_true_eq] at hentry
      obtain ⟨⟨hentry, rfl⟩, _⟩ := hentry
      exact absurd (Key.text_same_iff.mp hk) (hactions hentry)

/-- Every field of a canonical node of a known kind is saved as it is, but for
its actions on entry. -/
theorem CanonicalNode.get?_emitNode {kind : NodeKind}
    (hkind : NodeKind.ofName? (kindOf raw).text = some kind) {id transitions : Value}
    {out : Fields} (hout : emitNode raw id transitions = .ok out) {key : Key}
    (hkey : key ∉ ownKeys) (hactions : kind.plan.entryActions = true → key ≠ "actions") :
    Fields.get? out key = Fields.get? raw key := by
  have hlist : key ≠ "transitions" := ne_of_not_mem_ownKeys hkey (by decide)
  rw [get?_emitNode_of_known hkind hout hactions, if_neg fun h => hlist h.2]
  split
  · rfl
  next hno =>
    rw [get?_nodeHead_of_foreign raw id hkey]
    by_contra hread
    exact hno (h.copiesKey_of_read hkind hkey hactions fun hnone => hread hnone.symm)

/-- The actions on entry of a canonical node are saved as they are. -/
theorem CanonicalNode.exists_emitNode_actions {kind : NodeKind}
    (hkind : NodeKind.ofName? (kindOf raw).text = some kind)
    (hentry : kind.plan.entryActions = true) (id transitions : Value) :
    ∃ out, emitNode raw id transitions = .ok out
      ∧ Fields.get? out "actions" = Fields.get? raw "actions" := by
  obtain ⟨out, hout, hactions⟩ := h.putEntryActions_eq hkind hentry
    (kind.plan.body raw transitions (nodeHead raw id))
  refine ⟨out, ?_, ?_⟩
  · rw [emitNode, hkind]
    dsimp only
    rw [EmissionPlan.write_eq, if_pos hentry, hout]
  · have hforeign : Key.text "actions" ∉ ownKeys := by decide
    rw [hactions, kind.get?_body, if_neg fun h => ne_of_not_mem_ownKeys hforeign (by decide) h.2,
      NodeKind.copiesKey_actions hentry, if_neg Bool.false_ne_true,
      get?_nodeHead_of_foreign raw id hforeign, Option.or_none]

/-- **The fields of a canonical node are saved as they are**, and saving one
meets no fault. -/
theorem CanonicalNode.exists_emitNode (hd : Fields.distinct raw = true) (id transitions : Value) :
    ∃ out, emitNode raw id transitions = .ok out
      ∧ ∀ key, key ∉ ownKeys → Fields.get? out key = Fields.get? raw key := by
  cases hkind : NodeKind.ofName? (kindOf raw).text with
  | none =>
    have hout : emitNode raw id transitions
        = .ok (writeVerbatim raw transitions (nodeHead raw id)) := by rw [emitNode, hkind]
    refine ⟨_, hout, fun key hkey => ?_⟩
    rw [get?_emitNode_of_unknown hkind hout,
      if_neg fun h => ne_of_not_mem_ownKeys hkey (by decide) h.2, get?_verbatim hd hkey,
      get?_nodeHead_of_foreign raw id hkey, Option.or_none]
  | some kind =>
    by_cases hentry : kind.plan.entryActions = true
    · obtain ⟨out, hout, hactions⟩ := h.exists_emitNode_actions hkind hentry id transitions
      refine ⟨out, hout, fun key hkey => ?_⟩
      by_cases hkeyA : key = "actions"
      · rw [hkeyA, hactions]
      · exact h.get?_emitNode hkind hout hkey fun _ => hkeyA
    · have hout : emitNode raw id transitions
          = .ok (kind.plan.body raw transitions (nodeHead raw id)) := by
        rw [emitNode, hkind]
        dsimp only
        rw [EmissionPlan.write_eq, if_neg hentry]
      exact ⟨_, hout, fun key hkey => h.get?_emitNode hkind hout hkey
        fun htrue => absurd htrue hentry⟩

/-- The id, the kind and the name of a canonical node are saved as they are. -/
theorem CanonicalNode.get?_nodeHead {key : Key} (hkey : key ∈ ownKeys)
    (htransitions : key ≠ "transitions") (hmetadata : key ≠ "_metadata") :
    Fields.get? (nodeHead raw (.str (idOf raw))) key = Fields.get? raw key := by
  simp only [ownKeys, List.mem_cons, List.not_mem_nil, or_false] at hkey
  rcases hkey with rfl | rfl | rfl | rfl | rfl
  · rw [get?_nodeHead_id, h.get?_id]
  · rw [get?_nodeHead_type, h.get?_type]
  · rw [get?_nodeHead_name, Fields.get]
    cases hread : Fields.get? raw "name" with
    | none => rfl
    | some value =>
      have hne : value ≠ .null := fun hnull => h.name (hnull ▸ hread)
      rw [Option.getD_some, if_neg hne]
  · exact absurd rfl htransitions
  · exact absurd rfl hmetadata

/-- What an editor keeps about a canonical node is saved as it is. -/
theorem CanonicalNode.get?_putMetadata {id transitions : Value} {emitted : Fields}
    (hemitted : emitNode raw id transitions = .ok emitted) (node : Fields) :
    Fields.get? (putMetadata false node raw emitted) "_metadata"
      = Fields.get? raw "_metadata" := by
  rw [putMetadata, if_neg Bool.false_ne_true]
  cases hread : Fields.get? raw "_metadata" with
  | none =>
    rw [Fields.get, hread, Option.getD_none, if_pos rfl,
      get?_emitNode_head hemitted (by decide) (by decide),
      get?_nodeHead_of_ne raw _ (by decide) (by decide) (by decide)]
  | some value =>
    have hne : value ≠ .null := fun hnull => h.metadata (hnull ▸ hread)
    rw [Fields.get, hread, Option.getD_some, if_neg hne, Fields.get?_put_self]

/-- **A canonical node is saved as it was loaded**, up to the order of its
fields. -/
theorem CanonicalNode.exists_saveNode (hd : Fields.distinct raw = true)
    (hwf : fieldsWellFormed raw = true) {node : Fields} (hloaded : LoadedAs raw node)
    {edges : List Fields} (hedges : outgoing edges (idOf raw) = statedTransitions raw) :
    ∃ out, saveNode edges false node = .ok out ∧ (Value.obj out).Reordered (.obj raw) := by
  have hdata : dataOf node = raw := by
    rw [hloaded.dataOf_eq, Fields.put_eq_self h.get?_type]
  have hid : savedId node raw = idOf raw := by
    rw [← hloaded.idOf_eq, ← hloaded.savedId_eq, hdata]
  obtain ⟨emitted, hemitted, hfields⟩ := h.exists_emitNode hd (.str (idOf raw))
    (.list ((statedTransitions raw).map Transition.toItem))
  have hsave : saveNode edges false node = .ok (putMetadata false node raw emitted) := by
    rw [saveNode, ← dataOf, hdata, hid, hedges, hemitted]
    rfl
  refine ⟨_, hsave, .obj (distinct_saveNode hsave) hd fun key => ?_⟩
  -- the list is reordered item by item; under every other key there is just what was there
  by_cases hmetadata : key = "_metadata"
  · rw [hmetadata, h.get?_putMetadata hemitted]
    exact Value.Reordered.option_refl _
  · rw [CallFlow.get?_putMetadata _ _ _ _ hmetadata]
    by_cases htransitions : key = "transitions"
    · rw [htransitions, get?_emitNode_transitions hemitted, Value.truthy, List.isEmpty_map]
      exact h.reordered_transitions hwf
    · by_cases hown : key ∈ ownKeys
      · rw [get?_emitNode_head hemitted hown htransitions,
          h.get?_nodeHead hown htransitions hmetadata]
        exact Value.Reordered.option_refl _
      · rw [hfields key hown]
        exact Value.Reordered.option_refl _

end Node

/-! ## The section -/

/-- **A section is saved as it was**, up to the order of its fields, where
its nodes are. -/
theorem reordered_keptSettings {previous : Fields} (hd : Fields.distinct previous = true)
    (hstart : (Fields.get previous "initial_node").truthy = true) {nodes nodes' : Value}
    (hnodes : Fields.get? previous "nodes" = some nodes) (h : nodes'.Reordered nodes) :
    (Value.obj (Fields.put (keptSettings previous (Fields.get previous "initial_node")) "nodes"
      nodes')).Reordered (.obj previous) := by
  refine .obj (Fields.distinct_put (distinct_keptSettings _ _) _ _) hd fun key => ?_
  rw [Fields.get?_put]
  by_cases hkey : key = "nodes"
  · rw [if_pos (Key.text_same_iff.mpr hkey), hkey, hnodes]
    exact .some h
  · rw [if_neg fun hs => hkey (Key.text_same_iff.mp hs), get?_keptSettings, if_neg hkey]
    split
    next hinitial =>
      rw [hinitial, Fields.get?_of_truthy hstart]
      exact .some (.refl _)
    next => exact Value.Reordered.option_refl _

/-- What saving over a configuration comes to where no setting is edited and
an initial node is named. -/
theorem saveGraph_unedited (settings : Settings) {config : Value} {nodes edges saved : List Fields}
    (hstart : (Fields.get (workflowSection config) "initial_node").truthy = true)
    (hsaved : List.Forall₂ (fun node out => saveNode edges false node = .ok out) nodes saved) :
    saveGraph settings { previous := config } (Graph.ofObjects nodes edges).toValue
      = .ok (replaceSection config (Fields.put (keptSettings (workflowSection config)
          (Fields.get (workflowSection config) "initial_node")) "nodes"
          (.list (saved.map Value.obj)))) := by
  rw [saveGraph_null, Outcome.mapM_eq_ok.mpr hsaved, ← Value.orElse_of_truthy hstart
    ((Value.str (firstIdOf saved)).orElse settings.defaultInitialNode)]
  rfl

/-- **A section put in the place it came from gives the document it came
from**, up to the order of fields. -/
theorem Canonical.reordered_replaceSection {config : Value} (h : Canonical config)
    {workflow : Fields} (hw : (Value.obj workflow).Reordered (.obj (workflowSection config))) :
    (replaceSection config workflow).Reordered config := by
  obtain ⟨fields, rfl, hne⟩ := h.document
  have hd := (Value.wellFormed_obj.mp h.wellFormed).1
  rw [replaceSection]
  cases hwrapped : wrappedSection? (.obj fields) with
  | some inner =>
    rw [workflowSection, hwrapped, Option.getD_some] at hw
    rw [if_pos (Option.isSome_some)]
    exact .put hd (Fields.get?_of_get (wrappedSection?_eq_some.mp hwrapped) (by simp)) hw
  | none =>
    rw [workflowSection, hwrapped] at hw
    rw [if_neg (by simp), if_neg (by simpa using hne)]
    exact hw

/-- **A canonical configuration that is loaded and saved over itself comes
back as it was**, up to the order of fields. Loading and saving meet no
fault. -/
theorem reordered_save_load {config : Value} (h : Canonical config) :
    (∃ g, loadGraph .default config = .ok g)
      ∧ ∀ settings settings' g, loadGraph settings config = .ok g →
        ∃ document, saveGraph settings' { previous := config } g.toValue = .ok document
          ∧ document.Reordered config := by
  obtain ⟨raws, hraws, hids, hnodes⟩ := h.nodes
  have hsection : sectionNodes config = .ok raws := by
    have hread : (Value.list (raws.map Value.obj)).elementsOrNone = .ok (raws.map Value.obj) := by
      cases raws <;> rfl
    rw [sectionNodes, hraws, hread, Outcome.ok_bind, objectsAmong_map_obj]
    rfl
  have hwf := wellFormed_of_sectionNodes h.wellFormed hsection
  refine ⟨exists_loadGraph hsection (fun raw hraw => ?_) (.inl rfl),
    fun settings settings' g hload => ?_⟩
  · obtain ⟨kind, hkind⟩ := Value.eq_str_of_isText (hnodes raw hraw).kind
    rw [kindOf, Value.orElse_of_truthy (hnodes raw hraw).kindStated, hkind]
    rfl
  · obtain ⟨raws', nodes, hraws', rfl, hall⟩ := loadGraph_eq_ok hload
    obtain rfl := Except.ok.inj (hsection.symm.trans hraws')
    obtain ⟨saved, hsaved, hreordered⟩ := exists_forall₂_of_mem hall fun raw hraw node hloaded =>
      (hnodes raw hraw).exists_saveNode (Value.wellFormed_obj.mp (hwf raw hraw)).1
        (Value.fieldsWellFormed_fieldsOrNone (hwf raw hraw)) hloaded
        (outgoing_loadEdges_of_nodup hids (some []) hraw)
    refine ⟨_, saveGraph_unedited settings' h.initialNode hsaved, h.reordered_replaceSection
      (reordered_keptSettings ?_ h.initialNode (Fields.get?_of_get hraws (by simp)) (.list ?_))⟩
    · exact (Value.wellFormed_obj.mp (wellFormed_workflowSection h.wellFormed)).1
    · rw [List.forall₂_map_left_iff, List.forall₂_map_right_iff]
      exact hreordered

/-- A node that asks something and goes on, with its fields in no order in
particular. -/
def askingNode : Fields :=
  [("type", .str "standard"), ("transitions", .list [.obj [("target", .str "bye"),
    ("priority", .int 0), ("condition", .str "user_responded")]]), ("id", .str "ask"),
    ("system_prompt", .str "Ask.")]

/-- A node of a kind that is not known, with a field of its own. -/
def foreignNode : Fields := [("id", .str "bye"), ("type", .str "wave"), ("hand", .bool false)]

/-- A configuration of the two. -/
def greetingConfig : Value :=
  .obj [("workflow", .obj [("nodes", .list [.obj askingNode, .obj foreignNode]),
    ("recording", .null), ("initial_node", .str "ask")]), ("voice", .str "calm")]

/-- The configuration of the two is canonical. -/
theorem canonical_greetingConfig : Canonical greetingConfig := by
  have hask : CanonicalNode askingNode := by
    refine ⟨rfl, rfl, rfl, by decide, by decide, fun kind hkind => ?_, fun value hvalue => ?_⟩
    · obtain rfl : kind = .standard := by
        have : NodeKind.ofName? (kindOf askingNode).text = some .standard := by decide
        exact (Option.some.inj (hkind.symm.trans this))
      decide
    · obtain rfl := Option.some.inj hvalue
      refine ⟨by decide, [[("target", .str "bye"), ("priority", .int 0),
        ("condition", .str "user_responded")]], rfl, by simp, fun item hitem => ?_⟩
      obtain rfl := List.mem_singleton.mp hitem
      exact ⟨by decide, rfl, rfl, rfl, .inl rfl⟩
  have hforeign : CanonicalNode foreignNode := by
    refine ⟨rfl, rfl, rfl, by decide, by decide, fun kind hkind => ?_, fun value hvalue => ?_⟩
    · have : NodeKind.ofName? (kindOf foreignNode).text = none := by decide
      cases hkind.symm.trans this
    · cases hvalue
  refine ⟨by decide, ⟨_, rfl, by simp⟩, by decide, [askingNode, foreignNode], by decide,
    by decide, ?_⟩
  intro raw hraw
  simp only [List.mem_cons, List.not_mem_nil, or_false] at hraw
  rcases hraw with rfl | rfl
  · exact hask
  · exact hforeign

/-- Loading the configuration of the two and saving it over itself. -/
theorem reordered_save_load_greetingConfig :
    ∃ g document, loadGraph .default greetingConfig = .ok g
      ∧ saveGraph .default { previous := greetingConfig } g.toValue = .ok document
      ∧ document.Reordered greetingConfig := by
  obtain ⟨⟨g, hload⟩, hsave⟩ := reordered_save_load canonical_greetingConfig
  obtain ⟨document, hdocument, hreordered⟩ := hsave .default .default g hload
  exact ⟨g, document, hload, hdocument, hreordered⟩

end CallFlow

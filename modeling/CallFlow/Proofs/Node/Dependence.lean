import CallFlow.Proofs.Edge.Projection
import CallFlow.Proofs.Node.Emission

/-!
# What saving a node depends on

Saving reads no more of a node's data than it writes: the kind, the name,
and the fields the plan of the kind keeps, or all fields but a node's own
where the kind has no plan. Data that agree on these are *saved alike*
(`SavedAlike`), and then the same node is saved from them
(`SavedAlike.emitNode_eq`).

The list of transitions in the data is a copy of what the edges say, and
what is saved are the edges. So it does not matter what the copy says
(`savedAlike_put`).
-/

namespace CallFlow

/-- What a rule writes of some data, if it writes anything. -/
def keptBy (data : Fields) (rule : String × Presence) : Option Value :=
  (Fields.get? data rule.1).filter rule.2.keeps

/-- **Whether two data are saved alike**: they agree on all that saving
reads. -/
structure SavedAlike (data data' : Fields) : Prop where
  /-- They are of one kind. -/
  kind : kindOf data' = kindOf data
  /-- They have one name. -/
  name : Fields.get data' "name" = Fields.get data "name"
  /-- The rules of a known kind write the same of both. -/
  fields : ∀ kind, NodeKind.ofName? (kindOf data).text = some kind →
    ∀ rule ∈ kind.plan.fields, keptBy data' rule = keptBy data rule
  /-- A kind that keeps actions on entry keeps the same of both. -/
  actions : ∀ kind, NodeKind.ofName? (kindOf data).text = some kind →
    kind.plan.entryActions = true → ∀ out, putEntryActions data' out = putEntryActions data out
  /-- Where the kind is not known, the fields beside a node's own are the
  same. -/
  others : NodeKind.ofName? (kindOf data).text = none →
    data'.filter (fun f => f.1 ∉ ownKeys) = data.filter (fun f => f.1 ∉ ownKeys)

theorem SavedAlike.refl (data : Fields) : SavedAlike data data :=
  ⟨rfl, rfl, fun _ _ _ _ => rfl, fun _ _ _ _ => rfl, fun _ => rfl⟩

/-- What a rule writes is in place before the others are followed, and it is
what the rule keeps. -/
theorem copyFields_cons_keptBy (rule : String × Presence) (rules : List (String × Presence))
    (data out : Fields) :
    copyFields (rule :: rules) data out
      = copyFields rules data (match keptBy data rule with
        | some value => Fields.put out rule.1 value
        | none => out) := by
  rw [copyFields_cons, keptBy]
  cases Fields.get? data rule.1 with
  | none => rfl
  | some value => by_cases hkeeps : rule.2.keeps value = true <;> simp [Option.filter, hkeeps]

/-- **Copying fields depends on what the rules keep.** -/
theorem copyFields_congr {rules : List (String × Presence)} {data data' : Fields}
    (h : ∀ rule ∈ rules, keptBy data' rule = keptBy data rule) (out : Fields) :
    copyFields rules data' out = copyFields rules data out := by
  induction rules generalizing out with
  | nil => rfl
  | cons rule rest ih =>
    rw [copyFields_cons_keptBy, copyFields_cons_keptBy, h rule List.mem_cons_self]
    exact ih (fun r hr => h r (List.mem_cons_of_mem _ hr)) _

theorem EmissionPlan.body_congr {plan : EmissionPlan} {data data' : Fields}
    (h : ∀ rule ∈ plan.fields, keptBy data' rule = keptBy data rule) (transitions : Value)
    (head : Fields) : plan.body data' transitions head = plan.body data transitions head := by
  have hleading := copyFields_congr fun rule hrule => h rule (List.mem_append_left _ hrule)
  have htrailing := copyFields_congr fun rule hrule => h rule (List.mem_append_right _ hrule)
  rw [body, body, hleading, htrailing]

/-- **Data that are saved alike are saved as the same node.** -/
theorem SavedAlike.emitNode_eq {data data' : Fields} (h : SavedAlike data data')
    (id transitions : Value) : emitNode data' id transitions = emitNode data id transitions := by
  have hhead : nodeHead data' id = nodeHead data id := by
    rw [nodeHead, nodeHead, h.kind, h.name]
  rw [emitNode, emitNode, h.kind, hhead]
  cases hkind : NodeKind.ofName? (kindOf data).text with
  | none => simp only [writeVerbatim, h.others hkind]
  | some kind =>
    dsimp only
    rw [EmissionPlan.write_eq, EmissionPlan.write_eq, EmissionPlan.body_congr (h.fields kind hkind)]
    split
    next hentry => rw [h.actions kind hkind hentry]
    next => rfl

theorem filter_put_ownKey (data : Fields) {key : Key} (hkey : key ∈ ownKeys) (value : Value) :
    (Fields.put data key value).filter (fun f => f.1 ∉ ownKeys)
      = data.filter (fun f => f.1 ∉ ownKeys) := by
  refine Fields.filter_put data value fun k v hsame => ?_
  obtain rfl := Key.eq_of_same_of_isText (isText_of_mem_ownKeys key hkey) hsame
  simpa using hkey

/-- **What is read of data beside a node's own fields are the kind, the name
and all others.** -/
theorem savedAlike_of_get? {data data' : Fields}
    (hget : ∀ key : String, Key.text key = "type" ∨ Key.text key = "name" ∨ Key.text key ∉ ownKeys →
      Fields.get? data' key = Fields.get? data key)
    (hothers : data'.filter (fun f => f.1 ∉ ownKeys) = data.filter (fun f => f.1 ∉ ownKeys)) :
    SavedAlike data data' := by
  have hread : ∀ key : String, Key.text key = "type" ∨ Key.text key = "name"
      ∨ Key.text key ∉ ownKeys → Fields.get data' key = Fields.get data key :=
    fun key hkey => by rw [Fields.get, hget key hkey, Fields.get]
  refine ⟨?_, hread "name" (.inr (.inl rfl)), fun kind _ rule hmem => ?_, fun _ _ _ out => ?_,
    fun _ => hothers⟩
  · rw [kindOf, hread "type" (.inl rfl), kindOf]
  · rw [keptBy, hget rule.1 (.inr (.inr fun hown => kind.rule_ne_ownKey hmem hown rfl)), keptBy]
  · rw [putEntryActions, putEntryActions, hread "actions" (.inr (.inr (by decide)))]

/-- **A node's list of transitions and what an editor keeps about it have no
part in how its data are saved.** -/
theorem savedAlike_put (data : Fields) {key : Key} (hown : key ∈ ownKeys) (htype : key ≠ "type")
    (hname : key ≠ "name") (value : Value) : SavedAlike data (Fields.put data key value) := by
  refine savedAlike_of_get? (fun other hother => ?_) (filter_put_ownKey data hown value)
  refine Fields.get?_put_of_ne data value ?_
  by_contra hsame
  obtain rfl := Key.same_text.mp (by simpa using hsame)
  rcases hother with h | h | h
  · exact htype h
  · exact hname h
  · exact h hown

theorem get?_erase_transitions (data : Fields) {key : String} (hkey : key ≠ "transitions") :
    Fields.get? (Fields.erase data "transitions") key = Fields.get? data key := by
  rw [Fields.get?_erase, if_neg (by simpa using hkey.symm)]

theorem get_erase_transitions (data : Fields) {key : String} (hkey : key ≠ "transitions") :
    Fields.get (Fields.erase data "transitions") key = Fields.get data key := by
  rw [Fields.get, get?_erase_transitions data hkey, Fields.get]

/-- Without the list of transitions, the fields beside a node's own are the
same. -/
theorem filter_erase_transitions (data : Fields) :
    (Fields.erase data "transitions").filter (fun f => f.1 ∉ ownKeys)
      = data.filter (fun f => f.1 ∉ ownKeys) := by
  rw [Fields.erase, List.filter_filter]
  refine List.filter_congr fun f _ => ?_
  by_cases hown : f.1 ∈ ownKeys
  · simp [hown]
  · have hne : f.1.same "transitions" = false := by
      by_contra hsame
      have hkey : f.1 = "transitions" := Key.same_text.mp (by simpa using hsame)
      exact hown (hkey ▸ by decide)
    simp [hne]

/-- **Data that differ in their lists of transitions only are saved alike.** -/
theorem savedAlike_of_erase {data data' : Fields}
    (h : Fields.erase data' "transitions" = Fields.erase data "transitions") :
    SavedAlike data data' := by
  refine savedAlike_of_get? (fun key hkey => ?_) ?_
  · have hne : key ≠ "transitions" := by
      rintro rfl
      revert hkey
      decide
    rw [← get?_erase_transitions data' hne, h, get?_erase_transitions data hne]
  · rw [← filter_erase_transitions data', h, filter_erase_transitions data]

/-! ## What was saved is saved alike -/

theorem mem_ownKeys_of_mem_nodeHead {data : Fields} {id : Value} {f : Key × Value}
    (h : f ∈ nodeHead data id) : f.1 ∈ ownKeys := by
  rcases key_of_mem_nodeHead h with h | h | h <;> rw [h] <;> decide

/-- **Of what is written without a plan the fields beside a node's own are
those of the data**, in their order. -/
theorem filter_writeVerbatim {data : Fields} (hd : Fields.distinct data = true)
    (id transitions : Value) :
    (writeVerbatim data transitions (nodeHead data id)).filter (fun f => f.1 ∉ ownKeys)
      = data.filter (fun f => f.1 ∉ ownKeys) := by
  have hput : ∀ out : Fields, (putTransitions transitions out).filter (fun f => f.1 ∉ ownKeys)
      = out.filter (fun f => f.1 ∉ ownKeys) := by
    intro out
    unfold putTransitions
    split
    · exact filter_put_ownKey out (by decide) transitions
    · rfl
  have hdistinct : Fields.distinct
      (nodeHead data id ++ data.filter fun f => f.1 ∉ ownKeys) = true := by
    rw [Fields.distinct_iff_pairwise]
    refine List.pairwise_append.mpr ⟨Fields.distinct_iff_pairwise.mp (distinct_nodeHead data id),
      Fields.distinct_iff_pairwise.mp (Fields.distinct_filter hd _), fun f hf g hg => ?_⟩
    have hown := mem_ownKeys_of_mem_nodeHead hf
    have hother := of_decide_eq_true (List.mem_filter.mp hg).2
    by_contra hsame
    rw [Bool.not_eq_false, Key.same_comm] at hsame
    rw [Key.eq_of_same_of_isText (isText_of_mem_ownKeys f.1 hown) hsame] at hother
    exact hother hown
  have hhead : (nodeHead data id).filter (fun f => f.1 ∉ ownKeys) = [] := by
    rw [List.filter_eq_nil_iff]
    intro f hf
    simpa using mem_ownKeys_of_mem_nodeHead hf
  have hoverlay := Fields.overlay_eq_append hdistinct
  rw [Fields.overlay] at hoverlay
  rw [writeVerbatim, hput, hoverlay, List.filter_append, hhead, List.nil_append, List.filter_filter]
  simp only [Bool.and_self]

/-- Writing the actions on entry of what was written writes them again. -/
theorem putEntryActions_emitNode {data out : Fields} {id transitions : Value} {kind : NodeKind}
    (hkind : NodeKind.ofName? (kindOf data).text = some kind)
    (hentry : kind.plan.entryActions = true) (h : emitNode data id transitions = .ok out)
    (rest : Fields) : putEntryActions out rest = putEntryActions data rest := by
  have hwritten : putEntryActions data (kind.plan.body data transitions (nodeHead data id))
      = .ok out := by
    rcases emitNode_of_known hkind h with ⟨_, hout⟩ | ⟨hno, _⟩
    · exact hout
    · rw [hentry] at hno
      cases hno
  rw [putEntryActions, putEntryActions, ← statedOnEntry, ← statedOnEntry]
  rcases putEntryActions_eq_ok hwritten with ⟨hblank, rfl⟩ | ⟨items, hstated, hitems, hsome, rfl⟩
  · -- the rest of the node has no field of that name
    have hforeign : Key.text "actions" ∉ ownKeys := by decide
    have hread : Fields.get (kind.plan.body data transitions (nodeHead data id)) "actions"
        = .null := by
      rw [Fields.get, kind.get?_body,
        if_neg fun h => ne_of_not_mem_ownKeys hforeign (by decide) h.2,
        NodeKind.copiesKey_actions hentry, if_neg Bool.false_ne_true,
        get?_nodeHead_of_foreign data id hforeign]
      rfl
    rw [hblank, statedOnEntry, hread]
    rfl
  · have hread : statedOnEntry (Fields.put (kind.plan.body data transitions (nodeHead data id))
        "actions" (.obj [("on_entry", .list items)])) = .list items := by
      rw [statedOnEntry, Fields.get_put_self]
      simp [Value.fieldsOrNone, Fields.get, Fields.get?]
    rw [hread, hsome, hstated, hitems]
    rfl

/-- **What was saved of some data is saved as the data are.** -/
theorem savedAlike_emitNode {data out : Fields} {id transitions : Value}
    (hd : Fields.distinct data = true) (h : emitNode data id transitions = .ok out) :
    SavedAlike data out := by
  refine ⟨?_, ?_, fun kind hkind rule hrule => ?_, fun kind hkind hentry rest => ?_,
    fun hkind => ?_⟩
  · rw [kindOf, Fields.get, get?_emitNode_head h (by decide) (by decide), get?_nodeHead_type,
      Option.getD_some]
    exact Value.orElse_orElse _ _
  · rw [Fields.get, get?_emitNode_head h (by decide) (by decide), get?_nodeHead_name]
    split
    next hnull => rw [hnull, Option.getD_none]
    next => rfl
  · rw [keptBy, get?_emitNode_of_rule hkind h hrule, keptBy]
    split
    · rfl
    next hno =>
      -- what is not written is not kept
      cases hread : Fields.get? data rule.1 with
      | none => rfl
      | some value =>
        have hkeeps : rule.2.keeps value = false := by
          by_contra hkeeps
          exact hno (copiesKey_of_keeps hrule hread (by simpa using hkeeps))
        simp [Option.filter, hkeeps]
  · exact putEntryActions_emitNode hkind hentry h rest
  · rw [emitNode, hkind] at h
    obtain rfl := Except.ok.inj h
    exact filter_writeVerbatim hd id transitions

/-- Data saved alike as others that are saved alike are saved alike. -/
theorem SavedAlike.trans {data data' data'' : Fields} (h : SavedAlike data data')
    (h' : SavedAlike data' data'') : SavedAlike data data'' where
  kind := h'.kind.trans h.kind
  name := h'.name.trans h.name
  fields kind hkind rule hrule :=
    (h'.fields kind (h.kind ▸ hkind) rule hrule).trans (h.fields kind hkind rule hrule)
  actions kind hkind hentry out :=
    (h'.actions kind (h.kind ▸ hkind) hentry out).trans (h.actions kind hkind hentry out)
  others hkind := (h'.others (h.kind ▸ hkind)).trans (h.others hkind)

/-- **Where the transitions of a kind are not saved it does not matter which
are handed in.** -/
theorem emitNode_of_not_keepsTransitions {data : Fields} (h : keepsTransitions data = false)
    (id transitions transitions' : Value) :
    emitNode data id transitions' = emitNode data id transitions := by
  cases hkind : NodeKind.ofName? (kindOf data).text with
  | none =>
    rw [keepsTransitions_of_unknown hkind] at h
    cases h
  | some kind =>
    have hplan : kind.plan.transitions = false := by
      rw [kind.plan_transitions, NodeKind.name_of_ofName? hkind]
      exact h
    rw [emitNode, emitNode, hkind]
    simp only [EmissionPlan.write, hplan, Bool.false_eq_true, if_false]

end CallFlow
